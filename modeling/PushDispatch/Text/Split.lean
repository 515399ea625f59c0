/-! Text cut in two at a separator, which belongs to neither part. -/

namespace PushDispatch.Split

def atFirst (sep : Char) : List Char → Option (List Char × List Char)
  | [] => none
  | c :: rest =>
    if c = sep then some ([], rest) else (atFirst sep rest).map fun p => (c :: p.1, p.2)

def atLast (sep : Char) (cs : List Char) : Option (List Char × List Char) :=
  (atFirst sep cs.reverse).map fun p => (p.2.reverse, p.1.reverse)

def occurs (pattern : List Char) : List Char → Bool
  | [] => pattern.isEmpty
  | c :: rest => pattern.isPrefixOf (c :: rest) || occurs pattern rest

theorem atFirst_append {sep : Char} {a : List Char} (b : List Char) (h : sep ∉ a) :
    atFirst sep (a ++ sep :: b) = some (a, b) := by
  induction a with
  | nil => simp [atFirst]
  | cons c rest ih =>
    simp only [List.mem_cons, not_or] at h
    simp [atFirst, ih h.2, Ne.symm h.1]

end PushDispatch.Split
