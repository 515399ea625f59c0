import PushDispatch.Envelope.Data
import PushDispatch.Proofs.Except

/-! What decoding data comes to, in terms of the bytes of the text and of what they hold as JSON. -/
namespace PushDispatch.MessageData

variable {depth : Nat} {s : String}

theorem decodeText_eq_ok_iff {x : Entries} :
    decodeText depth s = .ok x ↔ ∃ bytes, bytes? s.toList = some bytes ∧
      Json.readBytes Json.boundedNumber depth bytes = .ok (.dict x) := by
  unfold decodeText
  cases bytes? s.toList with
  | none => simp
  | some bytes =>
    cases read : Json.readBytes Json.boundedNumber depth bytes with
    | ok v => cases v <;> simp [read]
    | error e => cases e <;> simp [read]

theorem decodeText_eq_halted_iff {cause : Json.Halt} :
    decodeText depth s = .error (.halted cause) ↔ ∃ bytes, bytes? s.toList = some bytes ∧
      Json.readBytes Json.boundedNumber depth bytes = .error (.halted cause) := by
  unfold decodeText
  cases bytes? s.toList with
  | none => simp
  | some bytes =>
    cases read : Json.readBytes Json.boundedNumber depth bytes with
    | ok v => cases v <;> simp [read]
    | error e => cases e <;> simp [read]

theorem exists_decodeText_eq_refused_iff (depth : Nat) (s : String) :
    (∃ cause, decodeText depth s = .error (.refused cause)) ↔
      ∀ bytes, bytes? s.toList = some bytes →
      Json.readBytes Json.boundedNumber depth bytes = .error .malformed ∨
        ∃ v, Json.readBytes Json.boundedNumber depth bytes = .ok v ∧ ∀ x, v ≠ .dict x := by
  unfold decodeText
  cases bytes? s.toList with
  | none => simp
  | some bytes =>
    cases read : Json.readBytes Json.boundedNumber depth bytes with
    | ok v => cases v <;> simp [read]
    | error e => cases e <;> simp [read]

theorem decode_eq_ok_iff {v : Value} {x : Entries} :
    decode depth v = .ok x ↔ v = .dict x ∨ ∃ s, v = .str s ∧ decodeText depth s = .ok x := by
  cases v <;> simp [decode]

theorem decode_eq_halted_iff {v : Value} {cause : Json.Halt} :
    decode depth v = .error (.halted cause) ↔
      ∃ s, v = .str s ∧ decodeText depth s = .error (.halted cause) := by
  cases v <;> simp [decode]

end PushDispatch.MessageData
