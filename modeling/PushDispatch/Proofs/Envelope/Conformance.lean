import PushDispatch.Proofs.Envelope.FieldTypes
import PushDispatch.Proofs.Envelope.NormalForm

/-! The envelopes that fit the contract, told from their fields alone. All that is decoded of JSON
fits it. What is salvaged fits it as long as nothing was wrong with the body but what is left out of
the envelope: its time, or attributes that are no object. -/
namespace PushDispatch.Envelope

structure Conforms (e : Envelope) : Prop extends IsTyped e where
  subscription : ∃ s, s ≠ "" ∧ e.subscription = some s
  id : ∃ s, e.id = some s
  decoded : ∃ entries, e.data = some entries

/-- The body breaks only what an envelope can do without. -/
def IsSalvageable (depth : Nat) (raw : Value) : Prop :=
  ∃ body, raw = .dict body ∧ ∀ q f, Breach depth body q f → q = .publishTime ∨ q = .attributes

variable {depth : Nat} {raw : Value} {body fields : Entries} {e : Envelope}

theorem conforms_of_keeps (json : Value.entriesJson body)
    (keeps : Keeps depth (.dict body) body fields e) : e.Conforms := by
  have within : Value.entriesJson fields := Value.isJson_of_field? json keeps.message
  obtain ⟨s, nonempty, -, subscription⟩ := keeps.subscription
  obtain ⟨_, id, -, hid⟩ := keeps.id
  obtain ⟨data, read, hd⟩ := keeps.data
  constructor
  case toIsTyped =>
    constructor
    case data =>
      intro entries shown
      cases hd.symm.trans shown
      exact hasTextKeys_of_entriesJson (read.entriesJson within)
    case attributeNames => exact hasTextKeys_of_entriesJson (keeps.attributes.entriesJson within)
    case attributeTexts => exact keeps.attributes.texts
  case subscription => exact ⟨s, nonempty, subscription⟩
  case id => exact ⟨id, hid⟩
  case decoded => exact ⟨data, hd⟩

theorem conforms_of_decode (json : raw.isJson) (decoded : decode depth raw = .ok e) :
    e.Conforms := by
  obtain ⟨body, fields, keeps⟩ := (decode_eq_ok_iff_keeps json).1 decoded
  obtain rfl := keeps.object
  exact conforms_of_keeps json keeps

theorem messageFields_of_no_message
    (none : ∀ fields, Entries.field? body "message" ≠ some (.dict fields)) :
    messageFields (.dict body) = [] := by
  unfold messageFields dictEntries
  split
  · rename_i fields message
    exact absurd message (none fields)
  · rfl

theorem pieces_data_iff_dataOf {entries : Entries} :
    (pieces depth raw).data = some entries ↔ DataOf depth (messageFields raw) entries := by
  refine ⟨fun taken => ?_, pieces_data⟩
  unfold pieces at taken
  cases present : Entries.field? (messageFields raw) "data" with
  | none =>
    simp only [present, Option.some.injEq] at taken
    exact taken ▸ .absent present
  | some v =>
    simp only [present] at taken
    exact (dataOf_iff present entries).2 (eq_ok_of_toOption taken)

theorem hasTextValues_of_no_breach {entries : Entries} (json : Value.entriesJson entries)
    (present : Entries.field? fields "attributes" = some (.dict entries))
    (none : ∀ i f, ¬ FieldBreach depth fields (.attribute i) f) : HasTextValues entries := by
  intro entry mem
  obtain ⟨⟨name, hk⟩, -⟩ := Value.entriesJson_iff.1 json entry mem
  obtain ⟨i, here⟩ := List.mem_iff_getElem?.1 mem
  by_contra notText
  have here : entries[i]? = some (.str name, entry.2) := by rw [here, ← hk]
  apply none i
  exact .attributeNotText present here fun s text => notText ⟨s, text⟩

section Message
variable (json : Value.entriesJson body)
  (message : Entries.field? body "message" = some (.dict fields))
include json message

theorem hasTextValues_pieces_iff_no_breach (depth : Nat) :
    HasTextValues (pieces depth (.dict body)).attributes ↔
      ∀ i f, ¬ FieldBreach depth fields (.attribute i) f := by
  have isJson : (Value.dict body).isJson := json
  have within : Value.entriesJson fields := Value.isJson_of_field? json message
  rw [hasTextValues_pieces_attributes_iff isJson, ← field?_messageFields isJson,
    messageFields_of_message message]
  constructor
  · intro texts i f breach
    cases breach with
    | attributeNotText present entry notText =>
      obtain ⟨s, text⟩ := texts _ present _ (List.mem_of_getElem? entry)
      exact notText s text
  · intro none entries present
    have entriesJson : Value.entriesJson entries := Value.isJson_of_field? within present
    exact hasTextValues_of_no_breach entriesJson present none

theorem unbroken_of_conforms (conforms : (pieces depth (.dict body)).Conforms) {q : Requirement}
    {f : Fault} (breach : Breach depth body q f) : q = .publishTime ∨ q = .attributes := by
  have isJson : (Value.dict body).isJson := json
  have within : Value.entriesJson fields := Value.isJson_of_field? json message
  have fields_eq := messageFields_of_message message
  rcases (breach_iff message).1 breach with here | ⟨g, here, -⟩
  · obtain ⟨s, nonempty, subscription⟩ := conforms.subscription
    rw [pieces_subscription_iff isJson, ← field?_body isJson] at subscription
    have settles := settles_checkSubscription depth body
    exact absurd here (settles.exists_holds_iff.1 ⟨s, nonempty, subscription⟩ q f)
  · have breach := here
    cases here with
    | noId | idNotText =>
      obtain ⟨id, hid⟩ := conforms.id
      rw [pieces_id_iff_idAt, fields_eq] at hid
      exact absurd ⟨rfl, breach⟩ ((settles_checkId depth fields).exists_holds_iff.1 ⟨id, hid⟩ _ _)
    | undecodableData =>
      obtain ⟨entries, decoded⟩ := conforms.decoded
      rw [pieces_data_iff_dataOf, fields_eq] at decoded
      have settles := settles_checkData depth within
      exact absurd ⟨rfl, breach⟩ (settles.exists_holds_iff.1 ⟨entries, decoded⟩ _ _)
    | attributeNotText =>
      have texts := hasTextValues_pieces_iff_no_breach json message depth
      exact absurd breach (texts.1 conforms.attributeTexts _ _)
    -- an envelope can do without the time, and its attributes may be none
    | notMoment => exact .inl rfl
    | attributesNotObject => exact .inr rfl

theorem conforms_of_unbroken
    (only : ∀ q f, Breach depth body q f → q = .publishTime ∨ q = .attributes) :
    (pieces depth (.dict body)).Conforms := by
  have isJson : (Value.dict body).isJson := json
  have within : Value.entriesJson fields := Value.isJson_of_field? json message
  have fields_eq := messageFields_of_message message
  have unbroken {q : Requirement} (required : ¬ (q = .publishTime ∨ q = .attributes))
      (g : Fault) : ¬ FieldBreach depth fields q g :=
    fun breach => required (only q _ (.inMessage message breach))
  obtain ⟨s, nonempty, subscription⟩ :=
    (settles_checkSubscription depth body).exists_holds_iff.2 <| by
      rintro q f ⟨rfl, breach⟩
      rcases only _ f breach with same | same <;> cases same
  obtain ⟨id, hid⟩ := (settles_checkId depth fields).exists_holds_iff.2 <| by
    rintro q f ⟨rfl, breach⟩
    exact unbroken (by simp) f breach
  obtain ⟨entries, decoded⟩ := (settles_checkData depth within).exists_holds_iff.2 <| by
    rintro q f ⟨rfl, breach⟩
    exact unbroken (by simp) f breach
  rw [← fields_eq, ← pieces_id_iff_idAt] at hid
  rw [← fields_eq, ← pieces_data_iff_dataOf] at decoded
  have subscription : (pieces depth (.dict body)).subscription = some s := by
    rw [pieces_subscription_iff isJson, ← field?_body isJson]
    exact subscription
  exact {
    data := fun _ taken => hasTextKeys_pieces_data isJson taken
    attributeNames := hasTextKeys_pieces_attributes isJson
    attributeTexts :=
      (hasTextValues_pieces_iff_no_breach json message depth).2 fun i g => unbroken (by simp) g
    subscription := ⟨s, nonempty, subscription⟩
    id := ⟨id, hid⟩
    decoded := ⟨entries, decoded⟩ }

theorem conforms_pieces_of_message : (pieces depth (.dict body)).Conforms ↔
    ∀ q f, Breach depth body q f → q = .publishTime ∨ q = .attributes :=
  ⟨fun conforms _ _ => unbroken_of_conforms json message conforms,
    conforms_of_unbroken json message⟩

end Message

theorem not_conforms_pieces_of_no_message
    (none : ∀ fields, Entries.field? body "message" ≠ some (.dict fields)) :
    ¬ (pieces depth (.dict body)).Conforms := by
  intro conforms
  obtain ⟨id, hid⟩ := conforms.id
  rw [pieces_id_iff_idAt, messageFields_of_no_message none] at hid
  obtain ⟨name, first | second⟩ := hid <;> contradiction

/-- What is salvaged of JSON fits the contract exactly when the body broke nothing that the envelope
needs. -/
theorem conforms_pieces_iff (json : raw.isJson) :
    (pieces depth raw).Conforms ↔ IsSalvageable depth raw := by
  by_cases object : ∃ body, raw = .dict body
  · obtain ⟨body, rfl⟩ := object
    have bodyJson : Value.entriesJson body := json
    have salvageable : IsSalvageable depth (.dict body) ↔
        ∀ q f, Breach depth body q f → q = .publishTime ∨ q = .attributes := by
      simp only [IsSalvageable, Value.dict.injEq, exists_eq_left']
    rw [salvageable]
    by_cases message : ∃ fields, Entries.field? body "message" = some (.dict fields)
    · obtain ⟨fields, message⟩ := message
      exact conforms_pieces_of_message bodyJson message
    · have none (fields : Entries) : Entries.field? body "message" ≠ some (.dict fields) :=
        fun present => message ⟨fields, present⟩
      refine iff_of_false (not_conforms_pieces_of_no_message none) fun only => ?_
      -- the missing message is itself a breach, and the envelope cannot do without it
      obtain ⟨m, -, present⟩ := (settles_checkMessage depth bodyJson).exists_holds_iff.2 <| by
        rintro q f ⟨rfl, breach⟩
        rcases only _ f breach with same | same <;> cases same
      exact none m.2 present
  · refine iff_of_false (fun conforms => ?_) fun ⟨body, same, _⟩ => object ⟨body, same⟩
    obtain ⟨s, -, subscription⟩ := conforms.subscription
    rw [pieces_subscription_iff json, ← field?_body json] at subscription
    cases raw with
    | dict body => exact object ⟨body, rfl⟩
    | _ => cases subscription

end PushDispatch.Envelope
