import PushDispatch.Value.Display

/-!
Conditions on a message: a nested mapping below `data` and `attributes`. A condition is the list of
its leaves, each a path of keys and the value expected there.
-/

namespace PushDispatch

structure Leaf where
  keys : List String
  value : Value
  deriving Repr

namespace Leaf

def path (leaf : Leaf) : String := ".".intercalate leaf.keys

def display (leaf : Leaf) : List Char := leaf.path.toList ++ '=' :: leaf.value.display

end Leaf

namespace Condition

mutual

/-- The leaves at a path: those of a mapping below it, or the one value that is there. -/
def leavesAt (path : List String) : Value → List Leaf
  | .dict entries => leavesBelow path entries
  | .proxy _ entries => leavesBelow path entries
  | v => [⟨path, v⟩]

def leavesBelow (path : List String) : List (Key × Value) → List Leaf
  | [] => []
  | (k, v) :: rest => leavesAt (path ++ [k.name]) v ++ leavesBelow path rest

end

def leaves (condition : Entries) : List Leaf := leavesBelow [] condition

mutual

def isNameable : Value → Bool
  | .dict entries => areNameable entries
  | .proxy _ entries => areNameable entries
  | _ => true

def areNameable : List (Key × Value) → Bool
  | [] => true
  | (k, v) :: rest => k.isWritable && isNameable v && areNameable rest

end

def roots : List String := ["data", "attributes"]

inductive Error where
  | notMapping (typeName : String)
  | unknownKeys (keys : List Key)
  | rootNotMapping (root : String)
  /-- A message about the condition would have to write an integer of too many digits. -/
  | unwritable
  deriving Repr

def Error.message : Error → String
  | .notMapping typeName => "Invalid options: condition must be a mapping, got " ++ typeName
  | .unknownKeys keys =>
    "Invalid options: condition keys must be one of ('data', 'attributes'), got "
      ++ String.ofList (Layout.bracketed (Key.displays keys))
  | .rootNotMapping root => s!"Invalid options: condition.{root} must be a mapping"
  | .unwritable => Numeral.Error.tooLargeToWrite.message

def isRoot : Key → Bool
  | .str s => roots.contains s
  | _ => false

def firstBare? : Entries → Option Key
  | [] => none
  | (k, v) :: rest => if v.entries?.isSome then firstBare? rest else some k

/-- Null stands for the condition that asks for nothing. -/
def check : Value → Except Error Entries
  | .null => .ok []
  | v =>
    match v.entries? with
    | none => .error (.notMapping v.typeName)
    | some entries =>
      match entries.keys.filter (!isRoot ·) with
      | [] =>
        match firstBare? entries with
        | some k => .error (.rootNotMapping k.name)
        | none => .ok entries
      | unknown => .error (if Key.areWritable unknown then .unknownKeys unknown else .unwritable)

end Condition
end PushDispatch
