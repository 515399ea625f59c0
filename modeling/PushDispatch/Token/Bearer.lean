import PushDispatch.Text.Blank
import PushDispatch.Text.LetterCase
import PushDispatch.Text.Split

/-! The token that an authorization header brings along. -/

namespace PushDispatch.Token

/--
The token after the word bearer, in any letter case, and a blank. A token that is blank is none. No
letter outside ASCII has a letter of that word as its small form.
-/
def ofHeader? (authorization : Option String) : Option String := do
  let (scheme, rest) ← Split.atFirst ' ' (← authorization).toList
  guard (LetterCase.lowerAscii (String.ofList scheme) = "bearer")
  match Blank.trim rest with
  | [] => none
  | token => some (String.ofList token)

end PushDispatch.Token
