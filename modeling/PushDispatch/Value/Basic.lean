import PushDispatch.Number.Double
import PushDispatch.DateTime.Basic

/-!
The dynamic values that messages, conditions and handlers exchange: JSON, widened by what a program
may hold beside it.

A mapping is its list of entries in insertion order. `Entries.insert` is the only way an entry
comes in: a key equal to an earlier one keeps the earlier key and takes the later value.
-/

namespace PushDispatch

/-- What a mapping can have as a key; `thunk` is a function, and no two of those are the same. -/
inductive Key where
  | null
  | bool (b : Bool)
  | int (n : Int)
  | float (d : Double)
  | str (s : String)
  | tuple (items : List Key)
  | thunk
  deriving Repr, Inhabited

/--
A value; `proxy` is a mapping behind layers that only let it be read, `thunk` a function of nothing
by its result.
-/
inductive Value where
  | null
  | bool (b : Bool)
  | int (n : Int)
  | float (d : Double)
  | str (s : String)
  | list (items : List Value)
  | tuple (items : List Value)
  | dict (entries : List (Key × Value))
  | proxy (layers : Nat) (entries : List (Key × Value))
  | thunk (result : Value)
  | message (id : Option String) (publishTime : Option DateTime) (data attributes : Value)
  | envelope (subscription id : Option String) (publishTime : Option DateTime)
      (data attributes : Value)
  deriving Repr, Inhabited

abbrev Entries := List (Key × Value)

namespace Key

def extent? : Key → Option Double.Extent
  | .bool b => some (.ofInt b.toNat)
  | .int n => some (.ofInt n)
  | .float d => some d.extent
  | _ => none

mutual

def same : Key → Key → Bool
  | .null, .null => true
  | .str a, .str b => a == b
  | .tuple as, .tuple bs => sameItems as bs
  | a, b =>
    match a.extent?, b.extent? with
    | some x, some y => x.same y
    | _, _ => false

def sameItems : List Key → List Key → Bool
  | [], [] => true
  | a :: as, b :: bs => same a b && sameItems as bs
  | _, _ => false

end

def text? : Key → Option String
  | .str s => some s
  | _ => none

mutual

def toValue : Key → Value
  | .null => .null
  | .bool b => .bool b
  | .int n => .int n
  | .float d => .float d
  | .str s => .str s
  | .tuple items => .tuple (toValues items)
  | .thunk => .thunk .null

def toValues : List Key → List Value
  | [] => []
  | k :: ks => k.toValue :: toValues ks

end

end Key

namespace Entries

def lookup? : Entries → Key → Option Value
  | [], _ => none
  | (k, v) :: rest, key => if k.same key then some v else lookup? rest key

def field? (entries : Entries) (name : String) : Option Value := lookup? entries (.str name)

def hasField (entries : Entries) (name : String) : Bool := (field? entries name).isSome

def insert : Entries → Key → Value → Entries
  | [], key, value => [(key, value)]
  | (k, v) :: rest, key, value =>
    if k.same key then (k, value) :: rest else (k, v) :: insert rest key value

/-- The mapping that results from setting the entries one after the other. -/
def collapse (entries : Entries) : Entries :=
  entries.foldl (fun acc e => insert acc e.1 e.2) []

def ofFields (fields : List (String × Value)) : Entries := fields.map fun f => (.str f.1, f.2)

def fields? : Entries → Option (List (String × Value))
  | [] => some []
  | (.str s, v) :: rest => (fields? rest).map ((s, v) :: ·)
  | _ :: _ => none

def keys (entries : Entries) : List Key := entries.map Prod.fst

theorem field?_cons (own : String) (v : Value) (rest : Entries) (name : String) :
    field? ((.str own, v) :: rest) name = if own = name then some v else field? rest name := by
  simp only [field?, lookup?, Key.same, beq_iff_eq]

@[simp] theorem field?_cons_self (name : String) (v : Value) (rest : Entries) :
    field? ((.str name, v) :: rest) name = some v := by rw [field?_cons, if_pos rfl]

end Entries

namespace Value

def typeName : Value → String
  | .null => "NoneType"
  | .bool _ => "bool"
  | .int _ => "int"
  | .float _ => "float"
  | .str _ => "str"
  | .list _ => "list"
  | .tuple _ => "tuple"
  | .dict _ => "dict"
  | .proxy .. => "mappingproxy"
  | .thunk _ => "function"
  | .message .. => "PushMessage"
  | .envelope .. => "PushEnvelope"

def entries? : Value → Option Entries
  | .dict entries => some entries
  | .proxy _ entries => some entries
  | _ => none

def str? : Value → Option String
  | .str s => some s
  | _ => none

mutual

def depth : Value → Nat
  | .list items => depthOfItems items + 1
  | .tuple items => depthOfItems items + 1
  | .dict entries => depthOfEntries entries + 1
  | .proxy _ entries => depthOfEntries entries + 1
  | .message _ _ data attributes => max (depth data) (depth attributes) + 1
  | .envelope _ _ _ data attributes => max (depth data) (depth attributes) + 2
  | _ => 0

def depthOfItems : List Value → Nat
  | [] => 0
  | v :: vs => max (depth v) (depthOfItems vs)

def depthOfEntries : List (Key × Value) → Nat
  | [] => 0
  | (_, v) :: rest => max (depth v) (depthOfEntries rest)

end

def ofFields (fields : List (String × Value)) : Value := .dict (Entries.ofFields fields)

def ofText? : Option String → Value
  | some s => .str s
  | none => .null

end Value
end PushDispatch
