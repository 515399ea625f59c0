import PushDispatch.Fault

/-!
The envelope of a pushed message: where it was subscribed, and the message with its id, time, data
and attributes.
-/

namespace PushDispatch

/-- A field is absent only in an envelope salvaged from a body that broke the contract. -/
structure Envelope where
  subscription : Option String
  id : Option String
  publishTime : Option DateTime
  data : Option Entries
  attributes : Entries
  deriving Repr, Inhabited

inductive EnvelopeError where
  | notObject (typeName : String)
  | faults (found : List Fault)
  deriving Repr

namespace Envelope

def dataValue (e : Envelope) : Value := (e.data.map Value.dict).getD .null

def toValue (e : Envelope) : Value :=
  .envelope e.subscription e.id e.publishTime e.dataValue (.dict e.attributes)

def ofValue? : Value → Option Envelope
  | .envelope subscription id time data attributes =>
    some ⟨subscription, id, time,
      match data with
        | .dict entries => some entries
        | _ => none,
      attributes.entries?.getD []⟩
  | _ => none

end Envelope

namespace EnvelopeError

inductive Reason where
  | missing
  | invalid
  deriving DecidableEq, Repr

def Reason.name : Reason → String
  | .missing => "missing"
  | .invalid => "invalid"

def details : EnvelopeError → List Fault
  | .notObject _ => []
  | .faults found => found

/-- One absent field makes the whole report one of absence. -/
def reason (e : EnvelopeError) : Reason :=
  if e.details.any (·.cause == .missing) then .missing else .invalid

def message : EnvelopeError → String
  | .notObject typeName => "envelope must be a JSON object, got " ++ typeName
  | .faults found => "envelope validation failed: " ++ Fault.headline found "PushEnvelope"

end EnvelopeError
end PushDispatch
