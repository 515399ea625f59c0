import PushDispatch.Number.Numeral
import PushDispatch.Number.Shortest
import PushDispatch.Value.Basic

/-!
Values as they stand in messages. A value that holds an integer of too many digits has no text;
`isWritable` tells which have one.
-/

namespace PushDispatch

namespace Layout

/-- Items in brackets with commas between them; a tuple of one item keeps a comma. -/
def separated : List (List Char) → List Char
  | [] => []
  | [x] => x
  | x :: rest => x ++ ',' :: ' ' :: separated rest

def bracketed (items : List (List Char)) : List Char := '[' :: separated items ++ [']']

def parenthesised : List (List Char) → List Char
  | [x] => '(' :: x ++ [',', ')']
  | items => '(' :: separated items ++ [')']

def braced (items : List (List Char)) : List Char := '\x7b' :: separated items ++ ['\x7d']

def boolText (b : Bool) : List Char := if b then "True".toList else "False".toList

def nullText : List Char := "None".toList

def optionalText : Option String → List Char
  | some s => Quoted.quoteChars s.toList
  | none => nullText

def momentText : Option DateTime → List Char
  | none => nullText
  | some t =>
    let parts := [t.year, t.month, t.day, t.hour, t.minute]
      ++ (if t.second = 0 ∧ t.microsecond = 0 then [] else [t.second])
      ++ (if t.microsecond = 0 then [] else [t.microsecond])
    let zone := match t.offset with
      | none => []
      | some m => ["tzinfo=TzInfo(".toList ++ Numeral.chars (m * 60) ++ [')']]
    "datetime.datetime(".toList ++ separated (parts.map (Nat.toDigits 10) ++ zone) ++ [')']

end Layout

namespace Key

mutual

def display : Key → List Char
  | .null => Layout.nullText
  | .bool b => Layout.boolText b
  | .int n => Numeral.chars n
  | .float d => d.text.toList
  | .str s => Quoted.quoteChars s.toList
  | .tuple items => Layout.parenthesised (displays items)
  | .thunk => "<function>".toList

def displays : List Key → List (List Char)
  | [] => []
  | k :: ks => k.display :: displays ks

end

def name : Key → String
  | .str s => s
  | k => String.ofList k.display

mutual

def isWritable : Key → Bool
  | .int n => Numeral.isWritable n
  | .tuple items => areWritable items
  | _ => true

def areWritable : List Key → Bool
  | [] => true
  | k :: ks => k.isWritable && areWritable ks

end

end Key

namespace Layout

def messageFields (id : Option String) (time : Option DateTime) (data attributes : List Char)
    (afterField : List Char) : List Char :=
  "message_id=".toList ++ optionalText id ++ afterField
    ++ "publish_time=".toList ++ momentText time ++ afterField
    ++ "data=".toList ++ data ++ afterField ++ "attributes=".toList ++ attributes

def messageCall (id : Option String) (time : Option DateTime) (data attributes : List Char) :
    List Char :=
  "PushMessage(".toList ++ messageFields id time data attributes [',', ' '] ++ [')']

def envelopeFields (subscription : Option String) (message afterField : List Char) : List Char :=
  "subscription=".toList ++ optionalText subscription ++ afterField ++ "message=".toList ++ message

def layered : Nat → List Char → List Char
  | 0, text => text
  | layers + 1, text => "mappingproxy(".toList ++ layered layers text ++ [')']

end Layout

namespace Value

mutual

def display : Value → List Char
  | .null => Layout.nullText
  | .bool b => Layout.boolText b
  | .int n => Numeral.chars n
  | .float d => d.text.toList
  | .str s => Quoted.quoteChars s.toList
  | .list items => Layout.bracketed (displays items)
  | .tuple items => Layout.parenthesised (displays items)
  | .dict entries => Layout.braced (displayEntries entries)
  | .proxy layers entries => Layout.layered layers (Layout.braced (displayEntries entries))
  | .thunk _ => "<function>".toList
  | .message id time data attributes =>
    Layout.messageCall id time (display data) (display attributes)
  | .envelope subscription id time data attributes =>
    let message := Layout.messageCall id time (display data) (display attributes)
    "PushEnvelope(".toList ++ Layout.envelopeFields subscription message [',', ' '] ++ [')']

def displays : List Value → List (List Char)
  | [] => []
  | v :: vs => display v :: displays vs

def displayEntries : List (Key × Value) → List (List Char)
  | [] => []
  | (k, v) :: rest => (k.display ++ ':' :: ' ' :: display v) :: displayEntries rest

end

mutual

def isWritable : Value → Bool
  | .int n => Numeral.isWritable n
  | .list items => areWritable items
  | .tuple items => areWritable items
  | .dict entries => entriesWritable entries
  | .proxy _ entries => entriesWritable entries
  | .message _ _ data attributes => isWritable data && isWritable attributes
  | .envelope _ _ _ data attributes => isWritable data && isWritable attributes
  | _ => true

def areWritable : List Value → Bool
  | [] => true
  | v :: vs => isWritable v && areWritable vs

def entriesWritable : List (Key × Value) → Bool
  | [] => true
  | (k, v) :: rest => k.isWritable && isWritable v && entriesWritable rest

end

/--
A text as it is, a mapping without its layers, an envelope and a message as their fields, any other
value as messages show it.
-/
def plain : Value → List Char
  | .str s => s.toList
  | .proxy _ entries => (Value.dict entries).display
  | .message id time data attributes =>
    Layout.messageFields id time data.display attributes.display [' ']
  | .envelope subscription id time data attributes =>
    Layout.envelopeFields subscription (Value.message id time data attributes).display [' ']
  | v => v.display

def text (v : Value) : Except Numeral.Error String :=
  if v.isWritable then .ok (String.ofList v.display) else .error .tooLargeToWrite

end Value
end PushDispatch
