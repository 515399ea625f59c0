import PushDispatch.Value.Basic

/-!
Loose equality of values, as it holds inside containers: numbers are equal when their extents are,
booleans counting as 0 and 1; lists and tuples are equal item by item and never to each other;
mappings are equal when they have equal values under equal keys, in any order.
-/

namespace PushDispatch.Value

def extent? : Value → Option Double.Extent
  | .bool b => some (.ofInt b.toNat)
  | .int n => some (.ofInt n)
  | .float d => some d.extent
  | _ => none

def sameTime : Option DateTime → Option DateTime → Bool
  | none, none => true
  | some a, some b => a.sameMoment b
  | _, _ => false

def sameNumber (a b : Value) : Bool :=
  match a.extent?, b.extent? with
  | some x, some y => x.same y
  | _, _ => false

mutual

def same : Value → Value → Bool
  | .null, .null => true
  | .str a, .str b => a == b
  | .list as, .list bs => sameItems as bs
  | .tuple as, .tuple bs => sameItems as bs
  | .dict as, .dict bs => as.length == bs.length && within as bs
  | .dict as, .proxy _ bs => as.length == bs.length && within as bs
  | .proxy _ as, .dict bs => as.length == bs.length && within as bs
  | .proxy _ as, .proxy _ bs => as.length == bs.length && within as bs
  | .message i t d a, .message i' t' d' a' =>
    i == i' && sameTime t t' && same d d' && same a a'
  | .envelope s i t d a, .envelope s' i' t' d' a' =>
    s == s' && i == i' && sameTime t t' && same d d' && same a a'
  | a, b => sameNumber a b

def sameItems : List Value → List Value → Bool
  | [], [] => true
  | a :: as, b :: bs => same a b && sameItems as bs
  | _, _ => false

/-- Every entry has an equal value under an equal key of the other mapping. -/
def within : List (Key × Value) → Entries → Bool
  | [], _ => true
  | (k, v) :: rest, bs =>
    (match Entries.lookup? bs k with
      | some w => same v w
      | none => false) && within rest bs

end

def isBool : Value → Bool
  | .bool _ => true
  | _ => false

/--
The equality asked of a leaf: a boolean equals the same boolean alone, everything else is compared
loosely.
-/
def matchesLeaf (actual expected : Value) : Bool :=
  if actual.isBool || expected.isBool then
    match actual, expected with
    | .bool a, .bool b => a == b
    | _, _ => false
  else actual.same expected

end PushDispatch.Value
