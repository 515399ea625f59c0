import PushDispatch.Proofs.Envelope.Salvage

/-! The declared types of an envelope's fields, and how far salvage keeps to them. A field is taken
over when it has its type and is left out otherwise, but attributes need only be a mapping: their
values are taken over unseen. -/
namespace PushDispatch.Envelope

def HasTextKeys (entries : Entries) : Prop := ∀ entry ∈ entries, ∃ name, entry.1 = .str name

def HasTextValues (entries : Entries) : Prop := ∀ entry ∈ entries, ∃ s, entry.2 = .str s

/-- The data, where there are any, are named by texts, and the attributes are texts by their names.
-/
structure IsTyped (e : Envelope) : Prop where
  data : ∀ entries, e.data = some entries → HasTextKeys entries
  attributeNames : HasTextKeys e.attributes
  attributeTexts : HasTextValues e.attributes

variable {depth : Nat} {raw : Value}

theorem hasTextKeys_of_entriesJson {entries : Entries} (json : Value.entriesJson entries) :
    HasTextKeys entries :=
  fun entry mem => (Value.entriesJson_iff.1 json entry mem).1

theorem isJson_of_reach? {v w : Value} (json : v.isJson) {path : List String}
    (found : v.reach? path = some w) : w.isJson := by
  induction path generalizing v with
  | nil =>
    cases found
    exact json
  | cons name path ih =>
    rw [Value.reach?_cons] at found
    obtain ⟨u, here, found⟩ := Option.bind_eq_some_iff.1 found
    exact ih (isJson_of_valueField? json here) found

theorem pieces_subscription_iff (json : raw.isJson) {s : String} :
    (pieces depth raw).subscription = some s ↔ raw.reach? ["subscription"] = some (.str s) := by
  simp only [pieces, field?_body json, Option.bind_eq_some_iff, str?_eq_some_iff,
    exists_eq_right]

theorem pieces_id_iff (json : raw.isJson) {s : String} :
    (pieces depth raw).id = some s ↔ raw.reach? ["message", "messageId"] = some (.str s) ∨
      raw.reach? ["message", "messageId"] = none ∧
        raw.reach? ["message", "message_id"] = some (.str s) := by
  simp only [pieces, idNames, firstField?, field?_messageFields json]
  cases raw.reach? ["message", "messageId"] with
  | some v => simp [str?_eq_some_iff]
  | none =>
    cases raw.reach? ["message", "message_id"] with
    | some v => simp [str?_eq_some_iff]
    | none => simp

theorem pieces_data_iff (json : raw.isJson) {entries : Entries} :
    (pieces depth raw).data = some entries ↔
      raw.reach? ["message", "data"] = none ∧ entries = [] ∨
        ∃ v, raw.reach? ["message", "data"] = some v ∧
          MessageData.decode depth v = .ok entries := by
  simp only [pieces, field?_messageFields json]
  cases raw.reach? ["message", "data"] with
  | none => simp [eq_comm]
  | some v => cases decoded : MessageData.decode depth v <;> simp [Except.toOption, decoded]

theorem pieces_attributes_eq (json : raw.isJson) :
    (pieces depth raw).attributes = dictEntries (raw.reach? ["message", "attributes"]) := by
  rw [← field?_messageFields json]
  rfl

theorem hasTextKeys_pieces_data (json : raw.isJson) {entries : Entries}
    (taken : (pieces depth raw).data = some entries) : HasTextKeys entries := by
  rcases (pieces_data_iff json).1 taken with ⟨-, rfl⟩ | ⟨v, present, decoded⟩
  · nofun
  · have isJson := isJson_of_reach? json present
    exact hasTextKeys_of_entriesJson (entriesJson_of_decode isJson decoded)

theorem hasTextKeys_pieces_attributes (json : raw.isJson) :
    HasTextKeys (pieces depth raw).attributes := by
  rw [pieces_attributes_eq json]
  cases present : raw.reach? ["message", "attributes"] with
  | none => nofun
  | some v =>
    cases v with
    | dict entries => exact hasTextKeys_of_entriesJson (isJson_of_reach? json present)
    | _ => nofun

theorem hasTextValues_pieces_attributes_iff (json : raw.isJson) :
    HasTextValues (pieces depth raw).attributes ↔
      ∀ entries, raw.reach? ["message", "attributes"] = some (.dict entries) →
        HasTextValues entries := by
  rw [pieces_attributes_eq json]
  constructor
  · intro texts entries present
    rw [present] at texts
    exact texts
  · intro texts
    cases present : raw.reach? ["message", "attributes"] with
    | none => nofun
    | some v =>
      cases v with
      | dict entries => exact texts entries present
      | _ => nofun

/-- Of JSON, a text is taken over as subscription or id exactly where it stands as one, and data
where they decode, by text names. What is salvaged is typed unless the body's attributes hold a
value that is no text. Something is salvaged unless the data are text that cannot be read to its
end. -/
theorem salvage_copies_by_type (depth : Nat) (json : raw.isJson) :
    (∀ cause, salvage depth raw = .error cause ↔ ∃ s,
      raw.reach? ["message", "data"] = some (.str s) ∧
        MessageData.decodeText depth s = .error (.halted cause)) ∧
    ∀ part, salvage depth raw = .ok part →
      (∀ s, part.subscription = some s ↔ raw.reach? ["subscription"] = some (.str s)) ∧
      (∀ s, part.id = some s ↔ raw.reach? ["message", "messageId"] = some (.str s) ∨
        raw.reach? ["message", "messageId"] = none ∧
          raw.reach? ["message", "message_id"] = some (.str s)) ∧
      (∀ entries, part.data = some entries → HasTextKeys entries ∧
        (raw.reach? ["message", "data"] = none ∧ entries = [] ∨
          ∃ v, raw.reach? ["message", "data"] = some v ∧
            MessageData.decode depth v = .ok entries)) ∧
      (part.IsTyped ↔
        ∀ entries, raw.reach? ["message", "attributes"] = some (.dict entries) →
          HasTextValues entries) := by
  refine ⟨fun cause => salvage_eq_error_iff json, fun part salvaged => ?_⟩
  obtain ⟨-, rfl⟩ := salvage_eq_ok_iff.1 salvaged
  refine ⟨fun s => pieces_subscription_iff json, fun s => pieces_id_iff json,
    fun entries taken => ?_, ?_⟩
  · exact ⟨hasTextKeys_pieces_data json taken, (pieces_data_iff json).1 taken⟩
  · rw [← hasTextValues_pieces_attributes_iff json]
    refine ⟨fun typed => typed.attributeTexts, fun texts => ?_⟩
    exact {
      data := fun _ taken => hasTextKeys_pieces_data json taken
      attributeNames := hasTextKeys_pieces_attributes json
      attributeTexts := texts }

theorem salvage_copies_by_type_numeric_id :
    let raw := Value.ofFields [("subscription", .str "s"), ("message",
      .ofFields [("messageId", .int 7), ("attributes", .ofFields [("a", .str "x")])])]
    raw.isJson ∧ ∃ part, salvage 100 raw = .ok part ∧ part.subscription = some "s" ∧
      part.id = none ∧ part.IsTyped := by
  intro raw
  have json : raw.isJson := by decide
  have attributes : raw.reach? ["message", "attributes"] = some (.ofFields [("a", .str "x")]) := rfl
  have salvaged : salvage 100 raw = .ok (pieces 100 raw) := rfl
  obtain ⟨subscription, id, -, typed⟩ := (salvage_copies_by_type 100 json).2 _ salvaged
  refine ⟨json, _, salvaged, (subscription "s").2 rfl, ?_, typed.2 fun entries present => ?_⟩
  · rw [Option.eq_none_iff_forall_ne_some]
    intro s taken
    rcases (id s).1 taken with present | ⟨absent, -⟩
    · cases present
    · cases absent
  · cases attributes.symm.trans present
    rintro entry (_ | ⟨_, ⟨⟩⟩)
    exact ⟨"x", rfl⟩

/-- The count that the contract rejects is salvaged as an attribute. -/
theorem salvage_copies_untyped_attribute :
    let raw := Value.ofFields
      [("message", .ofFields [("attributes", .ofFields [("count", .int 3)])])]
    let part := pieces 100 raw
    raw.isJson ∧ (∀ depth e, decode depth raw ≠ .ok e) ∧ salvage 100 raw = .ok part ∧
      part.attributes = [(.str "count", .int 3)] ∧ ¬ part.IsTyped := by
  intro raw part
  have taken : part.attributes = [(.str "count", .int 3)] := rfl
  refine ⟨by decide, nofun, rfl, taken, fun typed => ?_⟩
  obtain ⟨s, text⟩ := typed.attributeTexts (.str "count", .int 3)
    (taken ▸ List.mem_singleton_self _)
  cases text

end PushDispatch.Envelope
