import PushDispatch.Table

/-! A rule is compiled to a flat list of leaves, each looked up by its whole path. Containment
walks the nested condition and the message side by side instead, and needs neither paths nor
leaves. Both accept the same envelopes, whatever is nested, empty, missing or renamed on the way. -/
namespace PushDispatch

namespace Value

def field? (v : Value) (name : String) : Option Value :=
  v.entries?.bind fun entries => Entries.field? entries name

theorem reach?_cons (v : Value) (name : String) (names : List String) :
    v.reach? (name :: names) = (v.field? name).bind (·.reach? names) := by
  rw [reach?, field?]
  cases v.entries? with
  | none => rfl
  | some entries => cases h : Entries.field? entries name <;> simp [h]

@[simp] theorem reach?_append (v : Value) (names more : List String) :
    v.reach? (names ++ more) = (v.reach? names).bind (·.reach? more) := by
  induction names generalizing v with
  | nil => rfl
  | cons name names ih =>
    rw [List.cons_append, reach?_cons, reach?_cons]
    cases v.field? name with
    | none => rfl
    | some w => exact ih w

theorem reach?_snoc (v : Value) (names : List String) (name : String) :
    v.reach? (names ++ [name]) = (v.reach? names).bind (·.field? name) := by
  rw [reach?_append]
  congr 1
  funext w
  rw [reach?_cons]
  cases w.field? name <;> rfl

end Value

namespace Condition

mutual

def asks : Value → Bool
  | .dict entries => entriesAsk entries
  | .proxy _ entries => entriesAsk entries
  | _ => true

def entriesAsk : List (Key × Value) → Bool
  | [] => false
  | (_, c) :: rest => asks c || entriesAsk rest

end

mutual

/--
Does the value contain the condition? What asks for nothing is contained in everything, even where
its key is missing.
-/
def contains : Value → Value → Bool
  | .dict entries, actual => containsEntries entries actual
  | .proxy _ entries, actual => containsEntries entries actual
  | expected, actual => actual.matchesLeaf expected

def containsEntries : List (Key × Value) → Value → Bool
  | [], _ => true
  | (k, c) :: rest, actual =>
    (!asks c || match actual.field? k.name with
      | some w => contains c w
      | none => false) && containsEntries rest actual

end

mutual

theorem contains_of_not_asks (c actual : Value) (h : asks c = false) : contains c actual := by
  cases c with
  | dict entries | proxy _ entries => exact containsEntries_of_not_ask entries actual h
  | _ => cases h

theorem containsEntries_of_not_ask (entries : List (Key × Value)) (actual : Value)
    (h : entriesAsk entries = false) : containsEntries entries actual := by
  match entries with
  | [] => rfl
  | (k, c) :: rest =>
    simp only [entriesAsk, Bool.or_eq_false_iff] at h
    simp [containsEntries, h.1, containsEntries_of_not_ask rest actual h.2]

end

def containsAt (subject : Option Value) (c : Value) : Bool :=
  match subject with
  | some actual => contains c actual
  | none => !asks c

theorem containsEntries_cons (k : Key) (c : Value) (rest : Entries) (actual : Value) :
    containsEntries ((k, c) :: rest) actual
      = (containsAt (actual.field? k.name) c && containsEntries rest actual) := by
  rw [containsEntries]
  congr 1
  cases actual.field? k.name with
  | none => simp [containsAt]
  | some w =>
    cases h : asks c with
    | true => simp [containsAt]
    | false => simp [containsAt, contains_of_not_asks c w h]

private theorem holds_eq (names : List String) (c subject : Value) :
    Leaf.holds ⟨names, c⟩ subject = ((subject.reach? names).map (·.matchesLeaf c)).getD false := by
  rw [Leaf.holds]
  cases subject.reach? names <;> rfl

mutual

theorem all_holds_leavesAt (names : List String) (c subject : Value) :
    (leavesAt names c).all (·.holds subject) = containsAt (subject.reach? names) c := by
  cases c with
  | dict entries | proxy _ entries => exact all_holds_leavesBelow names entries subject
  | _ =>
    simp only [leavesAt, List.all_cons, List.all_nil, Bool.and_true, holds_eq]
    cases subject.reach? names <;> simp [containsAt, contains, asks]

theorem all_holds_leavesBelow (names : List String) (entries : List (Key × Value))
    (subject : Value) : (leavesBelow names entries).all (·.holds subject)
      = containsAt (subject.reach? names) (.dict entries) := by
  match entries with
  | [] => cases subject.reach? names <;> rfl
  | (k, c) :: rest =>
    rw [leavesBelow, List.all_append, all_holds_leavesAt, all_holds_leavesBelow, Value.reach?_snoc]
    cases subject.reach? names with
    | none => simp [containsAt, asks, entriesAsk]
    | some actual => simp [containsAt, contains, containsEntries_cons]

end

end Condition

namespace Rule

variable {η : Type}

theorem accepts_compile (index : Int) (condition : Entries) (handler : η) (e : Envelope) :
    (compile index condition handler).accepts e
      = Condition.contains (.dict condition) e.subject :=
  Condition.all_holds_leavesBelow [] condition e.subject

/-- A rule is built when every key can be named, and it accepts what contains the condition. -/
theorem accepts_eq_contains (index : Int) (condition : Entries) (handler : η) :
    (build index condition handler).isOk = Condition.areNameable condition ∧
      ∀ rule, build index condition handler = .ok rule →
        ∀ e : Envelope, rule.accepts e = Condition.contains (.dict condition) e.subject := by
  unfold build
  split
  · rename_i nameable
    refine ⟨nameable.symm, fun rule built e => ?_⟩
    cases built
    exact accepts_compile index condition handler e
  · rename_i unnameable
    exact ⟨(eq_false_of_ne_true unnameable).symm, nofun⟩

theorem accepts_eq_contains_colliding_keys :
    let condition : Entries :=
      [(.str "data", .dict [(.int 1, .str "a"), (.str "1", .str "a"), (.str "gone", .dict [])])]
    let e : Envelope := ⟨none, none, none, some (.ofFields [("1", .str "a")]), []⟩
    ∃ rule, build 0 condition () = .ok rule ∧ rule.accepts e := by
  intro condition e
  have nameable : Condition.areNameable condition := by decide +kernel
  have built : build 0 condition () = .ok (compile 0 condition ()) := if_pos nameable
  refine ⟨_, built, ?_⟩
  rw [(accepts_eq_contains 0 condition ()).2 _ built e]
  decide +kernel

end Rule
end PushDispatch
