import PushDispatch.Base64
import PushDispatch.Envelope.Basic
import PushDispatch.Json.Reader
import PushDispatch.Log.Record

/-!
The data of a message: an object, or the base-64 text of an object as JSON. The text may be broken
by blanks, lack its padding and use either alphabet; nothing else is coerced.
-/

namespace PushDispatch.MessageData

inductive Refusal where
  | neitherObjectNorText
  | unreadable
  | notObject (typeName : String)
  deriving DecidableEq, Repr

abbrev Error := Stop Refusal

/-- The padded text of the standard alphabet that an encoded text stands for. -/
def normalize (cs : List Char) : List Char :=
  (Base64.pad (Blank.removeBlanks cs)).map Base64.toStandard

def bytes? (cs : List Char) : Option Bytes := Base64.decode? (normalize cs)

def decodeText (depth : Nat) (s : String) : Except Error Entries :=
  match bytes? s.toList with
  | none => .error (.refused .unreadable)
  | some bytes =>
    match Json.readBytes Json.boundedNumber depth bytes with
    | .ok (.dict entries) => .ok entries
    | .ok v => .error (.refused (.notObject v.typeName))
    | .error .malformed => .error (.refused .unreadable)
    | .error (.halted cause) => .error (.halted cause)

def decode (depth : Nat) : Value → Except Error Entries
  | .dict entries => .ok entries
  | .str s => decodeText depth s
  | _ => .error (.refused .neitherObjectNorText)

def Refusal.message (_ : Refusal) : String := Fault.dataMessage

def Refusal.reason (_ : Refusal) : EnvelopeError.Reason := .invalid

def logger : String := "subpar.schemas.envelope"

def Refusal.log : Refusal → List LogRecord
  | .neitherObjectNorText => []
  | .unreadable => [⟨Level.debug, logger, "rejecting message data"⟩]
  | .notObject typeName =>
    [⟨Level.debug, logger, s!"rejecting message data: decoded to {typeName}, not an object"⟩]

def log : Except Error Entries → List LogRecord
  | .error (.refused cause) => cause.log
  | .ok _ | .error (.halted _) => []

end PushDispatch.MessageData
