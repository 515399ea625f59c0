import PushDispatch.Condition.Basic
import PushDispatch.Envelope.Basic
import PushDispatch.Value.Equality

/-!
When an envelope meets a condition: every leaf has an equal value at its path.
-/

namespace PushDispatch

namespace Value

def reach? : Value → List String → Option Value
  | v, [] => some v
  | v, k :: ks =>
    match v.entries? with
    | none => none
    | some entries =>
      match Entries.field? entries k with
      | none => none
      | some w => reach? w ks

end Value

namespace Envelope

/-- What conditions are asked of: the data and the attributes. -/
def subject (e : Envelope) : Value :=
  .ofFields [("data", e.dataValue), ("attributes", .dict e.attributes)]

end Envelope

namespace Leaf

/-- A leaf asks for presence, also where it expects null. -/
def holds (leaf : Leaf) (subject : Value) : Bool :=
  match subject.reach? leaf.keys with
  | none => false
  | some actual => actual.matchesLeaf leaf.value

end Leaf
end PushDispatch
