import PushDispatch.Proofs.Condition.Containment
import PushDispatch.Proofs.Envelope.Decoding

/-! What is salvaged of one body against what is decoded of another that keeps the contract. Each
field is salvaged from its own keys alone: where the two bodies have the same there, it has the same
value, whatever is wrong with the rest. -/
namespace PushDispatch.Envelope

/-- The fields that are salvaged; the time never is. -/
inductive Field where
  | subscription
  | id
  | data
  | attributes

namespace Field

/-- Where a field is read from. What is no mapping has nothing at any path that leads on from it. -/
def paths : Field → List (List String)
  | .subscription => [["subscription"]]
  | .id => [["message", "messageId"], ["message", "message_id"]]
  | .data => [["message", "data"]]
  | .attributes => [["message", "attributes"]]

def get (e : Envelope) : Field → Value
  | .subscription => .ofText? e.subscription
  | .id => .ofText? e.id
  | .data => e.dataValue
  | .attributes => .dict e.attributes

end Field

variable {depth : Nat} {raw raw' : Value} {body fields : Entries} {e : Envelope}

theorem field?_dictEntries {v : Value} (json : v.isJson) (name : String) :
    Entries.field? (dictEntries (some v)) name = v.field? name := by
  cases v with
  | tuple | proxy | thunk | message | envelope => cases json
  | _ => rfl

theorem isJson_of_valueField? {v w : Value} (json : v.isJson) {name : String}
    (found : v.field? name = some w) : w.isJson := by
  cases v with
  | dict entries => exact Value.isJson_of_field? json found
  | proxy => cases json
  | _ => cases found

theorem field?_body (json : raw.isJson) (name : String) :
    Entries.field? (dictEntries (some raw)) name = raw.reach? [name] := by
  rw [field?_dictEntries json, Value.reach?_cons]
  cases raw.field? name <;> rfl

theorem field?_messageFields (json : raw.isJson) (name : String) :
    Entries.field? (messageFields raw) name = raw.reach? ["message", name] := by
  rw [messageFields, field?_dictEntries json, Value.reach?_cons]
  cases found : raw.field? "message" with
  | none => rfl
  | some message => exact field?_body (isJson_of_valueField? json found) name

theorem pieces_data {data : Entries} (h : DataOf depth (messageFields raw) data) :
    (pieces depth raw).data = some data := by
  unfold pieces
  cases h with
  | absent absent => simp only [absent]
  | object present =>
    simp only [present]
    rfl
  | text present decoded =>
    simp only [present, MessageData.decode, decoded]
    rfl

theorem str?_eq_some_iff {v : Value} {s : String} : v.str? = some s ↔ v = .str s := by
  cases v <;> simp [Value.str?]

theorem pieces_id_iff_idAt {s : String} :
    (pieces depth raw).id = some s ↔ ∃ name, IdAt (messageFields raw) name (.str s) := by
  simp only [pieces, Option.bind_eq_some_iff, str?_eq_some_iff]
  constructor
  · rintro ⟨⟨name, v⟩, found, rfl⟩
    exact ⟨name, firstField?_eq_some_iff.1 found⟩
  · rintro ⟨name, spelled⟩
    exact ⟨(name, .str s), firstField?_eq_some_iff.2 spelled, rfl⟩

theorem messageFields_of_message (message : Entries.field? body "message" = some (.dict fields)) :
    messageFields (.dict body) = fields := by
  simp only [messageFields, dictEntries, message]

theorem salvage_eq_ok_iff {part : Envelope} : salvage depth raw = .ok part ↔
    dataHalt? depth (messageFields raw) = none ∧ pieces depth raw = part := by
  unfold salvage
  cases dataHalt? depth (messageFields raw) <;> simp

theorem salvage_eq_error_iff (json : raw.isJson) {cause : Json.Halt} :
    salvage depth raw = .error cause ↔ ∃ s, raw.reach? ["message", "data"] = some (.str s) ∧
      MessageData.decodeText depth s = .error (.halted cause) := by
  rw [← field?_messageFields json, ← dataHalt?_eq_some_iff, salvage]
  cases dataHalt? depth (messageFields raw) <;> simp

theorem bodyHalt?_of_dataHalt? {cause : Json.Halt}
    (halted : dataHalt? depth (messageFields (.dict body)) = some cause) :
    bodyHalt? depth body = some cause := by
  unfold messageFields dictEntries at halted
  dsimp only at halted
  split at halted
  · next fields message => rwa [bodyHalt?_of_message message]
  · cases halted

/-- What was refused was read to its end, so something is salvaged of it. -/
theorem salvage_of_refused {err : EnvelopeError}
    (refused : decode depth raw = .error (.refused err)) :
    salvage depth raw = .ok (pieces depth raw) := by
  rw [salvage_eq_ok_iff, Option.eq_none_iff_forall_ne_some]
  refine ⟨fun cause halted => ?_, rfl⟩
  cases raw with
  | dict body =>
    rw [decode_dict_of_halt (bodyHalt?_of_dataHalt? halted)] at refused
    cases refused
  | _ => cases halted

end PushDispatch.Envelope
