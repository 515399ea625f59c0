import PushDispatch.Proofs.Envelope.FieldChecks
import PushDispatch.Proofs.Except

/-! Decoding keeps the contract of envelopes: a JSON body is accepted exactly when it keeps the
contract, with the values the contract gives it, and is otherwise refused with the complete report
of its breaches in the order of the fields. -/
namespace PushDispatch.Envelope

variable {depth : Nat} {body fields : Entries}

theorem ofFields_of_no_message {found : List Fault} (refused : checkMessage body = .error found) :
    ofFields depth body = .error ((checkSubscription body).faults ++ found) := by
  rw [ofFields, refused]

theorem message_of_checkMessage (json : Value.entriesJson body) {pair : Value × Entries}
    (checked : checkMessage body = .ok pair) :
    Entries.field? body "message" = some (.dict pair.2) ∧ Value.entriesJson pair.2 := by
  have message := ((settles_checkMessage 0 json).eq_ok_iff.1 checked).2
  have within : Value.isJson (.dict pair.2) := Value.isJson_of_field? json message
  exact ⟨message, within⟩

section Message
variable (message : Entries.field? body "message" = some (.dict fields))
include message

theorem checkMessage_of_dict : checkMessage body = .ok (.dict fields, fields) := by
  rw [checkMessage, message]
  rfl

theorem ofFields_eq_ok_iff {e : Envelope} : ofFields depth body = .ok e ↔
    ∃ s id t d a, checkSubscription body = .ok s ∧ checkId (.dict fields) fields = .ok id ∧
      checkTime fields = .ok t ∧ checkData depth fields = .ok d ∧ checkAttributes fields = .ok a ∧
      e = ⟨some s, some id, t, some d, a⟩ := by
  rw [ofFields, checkMessage_of_dict message]
  dsimp only
  constructor
  · intro accepted
    split at accepted
    · rename_i s id t d a hs hid ht hd ha
      exact ⟨s, id, t, d, a, hs, hid, ht, hd, ha, (Except.ok.inj accepted).symm⟩
    · cases accepted
  · rintro ⟨s, id, t, d, a, hs, hid, ht, hd, ha, rfl⟩
    rw [hs, hid, ht, hd, ha]

theorem breach_iff {q : Requirement} {f : Fault} :
    Breach depth body q f ↔ among (· = .subscription) (Breach depth body) q f ∨
      ∃ g, FieldBreach depth fields q g ∧ f = g.within "message" := by
  constructor
  · intro h
    have breach := h
    cases breach with
    | noSubscription | emptySubscription | subscriptionNotText => exact .inl ⟨rfl, h⟩
    | noMessage absent => simp [absent] at message
    | messageNotObject present notObject =>
      exact absurd (Option.some.inj (present.symm.trans message)) (notObject fields)
    | inMessage other breach =>
      cases message.symm.trans other
      exact .inr ⟨_, breach, rfl⟩
  · rintro (⟨-, h⟩ | ⟨g, h, rfl⟩)
    · exact h
    · exact .inMessage message h

end Message

theorem ofFields_eq_ok_iff_keeps (json : Value.entriesJson body) {e : Envelope} :
    ofFields depth body = .ok e ↔ ∃ fields, Keeps depth (.dict body) body fields e := by
  constructor
  · intro accepted
    cases m : checkMessage body with
    | error faults =>
      rw [ofFields_of_no_message m] at accepted
      cases accepted
    | ok pair =>
      obtain ⟨message, within⟩ := message_of_checkMessage json m
      obtain ⟨s, id, t, d, a, hs, hid, ht, hd, ha, rfl⟩ := (ofFields_eq_ok_iff message).1 accepted
      obtain ⟨nonempty, present⟩ := (settles_checkSubscription depth body).eq_ok_iff.1 hs
      obtain ⟨name, text⟩ := (settles_checkId depth pair.2).eq_ok_iff.1 hid
      exact ⟨pair.2, {
        object := rfl
        subscription := ⟨s, nonempty, present, rfl⟩
        message := message
        id := ⟨name, id, text, rfl⟩
        publishTime := (settles_checkTime depth pair.2).eq_ok_iff.1 ht
        data := ⟨d, (settles_checkData depth within).eq_ok_iff.1 hd, rfl⟩
        attributes := (settles_checkAttributes depth within).eq_ok_iff.1 ha }⟩
  · rintro ⟨fields, keeps⟩
    have within : Value.entriesJson fields := Value.isJson_of_field? json keeps.message
    obtain ⟨s, nonempty, present, hs⟩ := keeps.subscription
    obtain ⟨name, id, text, hid⟩ := keeps.id
    obtain ⟨d, data, hd⟩ := keeps.data
    refine (ofFields_eq_ok_iff keeps.message).2 ⟨s, id, e.publishTime, d, e.attributes, ?_, ?_, ?_,
      ?_, ?_, ?_⟩
    · exact (settles_checkSubscription depth body).eq_ok_iff.2 ⟨nonempty, present⟩
    · exact (settles_checkId depth fields).eq_ok_iff.2 ⟨name, text⟩
    · exact (settles_checkTime depth fields).eq_ok_iff.2 keeps.publishTime
    · exact (settles_checkData depth within).eq_ok_iff.2 data
    · exact (settles_checkAttributes depth within).eq_ok_iff.2 keeps.attributes
    · rw [← hs, ← hid, ← hd]

theorem FieldBreach.unique : Relator.RightUnique (FieldBreach depth fields) := by
  intro q f g hf hg
  cases hf with
  | noId camel snake =>
    cases hg with
    | noId => rfl
    | idNotText present _ => exact absurd ⟨camel, snake⟩ present.present
  | idNotText present _ =>
    cases hg with
    | noId camel snake => exact absurd ⟨camel, snake⟩ present.present
    | idNotText other _ =>
      obtain ⟨rfl, rfl⟩ := present.unique other
      rfl
  | notMoment present _ unread =>
    cases hg with
    | notMoment other _ unread' =>
      obtain ⟨rfl, rfl⟩ := present.unique other
      cases unread.symm.trans unread'
      rfl
  | undecodableData present | attributesNotObject present =>
    cases hg with
    | _ other =>
      cases present.symm.trans other
      rfl
  | attributeNotText present entry _ =>
    cases hg with
    | attributeNotText other entry' _ =>
      cases present.symm.trans other
      cases entry.symm.trans entry'
      rfl

theorem Breach.unique : Relator.RightUnique (Breach depth body) := by
  intro q f g hf hg
  cases hf with
  | inMessage message breach =>
    cases hg with
    | inMessage other breach' =>
      cases message.symm.trans other
      cases breach.unique breach'
      rfl
    | _ => cases breach
  | noSubscription | noMessage | emptySubscription | messageNotObject =>
    cases hg with
    | inMessage _ breach => cases breach
    | _ => simp_all
  | subscriptionNotText present notText =>
    cases hg with
    | inMessage _ breach => cases breach
    | noSubscription absent => cases present.symm.trans absent
    | emptySubscription other =>
      exact absurd (Option.some.inj (present.symm.trans other)) (notText "")
    | subscriptionNotText other _ =>
      cases present.symm.trans other
      rfl

theorem dataHalt?_eq_some_iff {cause : Json.Halt} :
    dataHalt? depth fields = some cause ↔ ∃ s, Entries.field? fields "data" = some (.str s) ∧
      MessageData.decodeText depth s = .error (.halted cause) := by
  unfold dataHalt?
  cases Entries.field? fields "data" with
  | none => simp
  | some v =>
    rw [Option.map_some]
    constructor
    · intro halted
      split at halted
      · rename_i decoded
        cases halted
        obtain ⟨s, rfl, text⟩ := MessageData.decode_eq_halted_iff.1 (Option.some.inj decoded)
        exact ⟨s, rfl, text⟩
      · cases halted
    · rintro ⟨s, present, text⟩
      rw [MessageData.decode_eq_halted_iff.2 ⟨s, Option.some.inj present, text⟩]

theorem bodyHalt?_of_message (message : Entries.field? body "message" = some (.dict fields)) :
    bodyHalt? depth body = dataHalt? depth fields := by
  rw [bodyHalt?, message]
  rfl

theorem bodyHalt?_eq_none_of_keeps {raw : Value} {e : Envelope}
    (keeps : Keeps depth raw body fields e) :
    bodyHalt? depth body = none := by
  rw [bodyHalt?_of_message keeps.message, Option.eq_none_iff_forall_ne_some]
  intro cause halted
  obtain ⟨s, present, text⟩ := dataHalt?_eq_some_iff.1 halted
  obtain ⟨entries, data, -⟩ := keeps.data
  have decoded := (dataOf_iff present entries).1 data
  cases text.symm.trans decoded

theorem decode_dict_of_halt {cause : Json.Halt} (halted : bodyHalt? depth body = some cause) :
    decode depth (.dict body) = .error (.halted cause) := by
  rw [decode]
  simp only [ofValue?, halted]

theorem decode_dict_of_no_halt (none : bodyHalt? depth body = none) :
    decode depth (.dict body) = (ofFields depth body).mapError (.refused ∘ .faults) := by
  rw [decode]
  simp only [ofValue?, none]

theorem decode_dict_eq_ok_iff (json : Value.entriesJson body) {e : Envelope} :
    decode depth (.dict body) = .ok e ↔ ofFields depth body = .ok e := by
  cases halt : bodyHalt? depth body with
  | some cause =>
    rw [decode_dict_of_halt halt]
    refine iff_of_false nofun fun accepted => ?_
    obtain ⟨fields, keeps⟩ := (ofFields_eq_ok_iff_keeps json).1 accepted
    cases halt.symm.trans (bodyHalt?_eq_none_of_keeps keeps)
  | none => rw [decode_dict_of_no_halt halt, mapError_eq_ok_iff]

theorem decode_eq_error_of_not_object {raw : Value} (json : raw.isJson)
    (notObject : ∀ body, raw ≠ .dict body) :
    decode depth raw = .error (.refused (.notObject raw.typeName)) := by
  cases raw with
  | dict body => exact absurd rfl (notObject body)
  | envelope => cases json
  | _ => rfl

theorem decode_eq_ok_iff_keeps {raw : Value} (json : raw.isJson) {e : Envelope} :
    decode depth raw = .ok e ↔ ∃ body fields, Keeps depth raw body fields e := by
  constructor
  · intro decoded
    by_cases object : ∃ body, raw = .dict body
    · obtain ⟨body, rfl⟩ := object
      rw [decode_dict_eq_ok_iff json, ofFields_eq_ok_iff_keeps json] at decoded
      exact ⟨body, decoded⟩
    · rw [decode_eq_error_of_not_object json fun body same => object ⟨body, same⟩] at decoded
      cases decoded
  · rintro ⟨body, fields, keeps⟩
    obtain rfl := keeps.object
    rw [decode_dict_eq_ok_iff json, ofFields_eq_ok_iff_keeps json]
    exact ⟨fields, keeps⟩

end PushDispatch.Envelope
