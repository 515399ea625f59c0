import PushDispatch.Text.Encoding
import PushDispatch.Text.LetterCase

/-! Requests to the server. -/

namespace PushDispatch

structure Request where
  method : String
  path : String
  headers : List (String × String)
  body : Bytes
  deriving Repr

inductive HeaderError where
  | notLatin
  deriving DecidableEq, Repr

namespace Request

/-- The first header of a name, whose letter case does not matter. Names are of Latin letters. -/
def header? (r : Request) (name : String) : Except HeaderError (Option String) := do
  let some key := LetterCase.lowerLatin? name | throw .notLatin
  return (r.headers.find? fun h => LetterCase.lowerLatin? h.1 == some key).map (·.2)

end Request
end PushDispatch
