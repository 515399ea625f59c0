/-! Things with names, in the order in which the names came in. -/

namespace PushDispatch

abbrev Named (α : Type) := List (String × α)

namespace Named

variable {α : Type}

/-- Gives a name its thing, in the earlier place if the name has one. -/
def set : Named α → String → α → Named α
  | [], name, a => [(name, a)]
  | (n, b) :: rest, name, a =>
    if n = name then (n, a) :: rest else (n, b) :: set rest name a

def names (xs : Named α) : List String := xs.map Prod.fst

@[simp] theorem lookup_set (xs : Named α) (name key : String) (a : α) :
    (xs.set name a).lookup key = if key = name then some a else xs.lookup key := by
  induction xs with
  | nil =>
    by_cases h : key = name
    · simp [set, h]
    · simp [set, h, List.lookup_cons]
      simp [beq_eq_false_iff_ne.2 h]
  | cons x rest ih =>
    obtain ⟨n, b⟩ := x
    by_cases hn : n = name
    · subst hn
      by_cases h : key = n
      · simp [set, h]
      · simp [set, h, List.lookup_cons, beq_eq_false_iff_ne.2 h]
    · by_cases h : key = n
      · subst h
        simp [set, hn]
      · simp [set, hn, List.lookup_cons, beq_eq_false_iff_ne.2 h, ih]

end Named
end PushDispatch
