import PushDispatch.Envelope.Basic
import PushDispatch.Value.Mapping

/-!
The context a handler is given beside the envelope: values bound for it, decorations, the request of
the transport and, when the envelope was salvaged, what was wrong with the body.
-/

namespace PushDispatch

variable {ρ : Type}

/-- What a handler is told beside the message; `ρ` is the type of requests of the transport. -/
structure Context (ρ : Type) where
  bindings : Entries := []
  decorations : Entries := []
  request : Option ρ := none
  validationError : Option EnvelopeError := none

inductive Attribute (ρ : Type) where
  | value (v : Value)
  | request (r : Option ρ)
  | validationError (e : Option EnvelopeError)

namespace Context

def ownNames : List String := ["bindings", "decorations", "request", "validation_error"]

def ofValues (bindings decorations : Value) (request : Option ρ) :
    Except MappingError (Context ρ) := do
  return { bindings := ← Entries.ofValue bindings, decorations := ← Entries.ofValue decorations,
           request }

/-- Own fields come first, then decorations, then bindings. -/
def attribute? (c : Context ρ) (name : String) : Option (Attribute ρ) :=
  if name = "bindings" then some (.value (.dict c.bindings))
  else if name = "decorations" then some (.value (.dict c.decorations))
  else if name = "request" then some (.request c.request)
  else if name = "validation_error" then some (.validationError c.validationError)
  else
    ((Entries.field? c.decorations name).orElse fun _ => Entries.field? c.bindings name).map .value

end Context
end PushDispatch
