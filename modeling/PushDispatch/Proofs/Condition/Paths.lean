import PushDispatch.Proofs.Condition.Growth
import PushDispatch.Proofs.Json.Grammar
import PushDispatch.Proofs.Value.Places

/-! Leaves against paths, where keys are texts. The leaves of a condition are what its paths lead
to, each leaf there once, in the order of the keys at the place where two paths part. So the leaves
tell the whole condition except for the entries that ask for nothing. -/
namespace PushDispatch

namespace Entries

variable {entries : Entries} {name : String} {v : Value}

theorem mem_keys_of_field? (found : field? entries name = some v) : .str name ∈ keys entries := by
  rw [field?, lookup?_eq] at found
  obtain ⟨entry, here, -⟩ := Option.map_eq_some_iff.1 found
  have same := List.find?_some here
  rw [Key.same_comm, Key.same_str_iff] at same
  exact List.mem_map.2 ⟨entry, List.mem_of_find?_eq_some here, same⟩

end Entries

namespace Value

variable {m : Value} {entries : Entries}

theorem reach?_of_entries (mapping : m.entries? = some entries) (name : String)
    (names : List String) :
    m.reach? (name :: names) = (Entries.field? entries name).bind (·.reach? names) := by
  rw [reach?_cons, field?, mapping]
  rfl

theorem eq_nil_of_reach?_of_bare {v : Value} (bare : m.entries? = none) {names : List String}
    (found : m.reach? names = some v) : names = [] := by
  cases names with
  | nil => rfl
  | cons name names =>
    rw [reach?_cons, field?, bare] at found
    cases found

end Value

namespace Condition

mutual

/-- Are the keys on the way to the leaves texts, each once in its mapping? -/
def isTextual : Value → Bool
  | .dict entries => areTextual entries
  | .proxy _ entries => areTextual entries
  | _ => true

def areTextual : List (Key × Value) → Bool
  | [] => true
  | (k, v) :: rest => Value.isFreshName k rest && isTextual v && areTextual rest

end

variable {c : Value} {entries : Entries}

@[simp] theorem areTextual_cons_iff {k : Key} {rest : Entries} : areTextual ((k, c) :: rest) ↔
    (∃ own, k = .str own ∧ Entries.field? rest own = none) ∧ isTextual c ∧ areTextual rest := by
  rw [areTextual, Bool.and_eq_true, Bool.and_eq_true, and_assoc, Value.isFreshName_iff]

theorem leavesAt_of_entries (mapping : c.entries? = some entries) (path : List String) :
    leavesAt path c = leavesBelow path entries := by
  cases c with
  | dict | proxy =>
    cases mapping
    rfl
  | _ => cases mapping

theorem leavesAt_of_bare (bare : c.entries? = none) (path : List String) :
    leavesAt path c = [⟨path, c⟩] := by
  cases c with
  | dict | proxy => cases bare
  | _ => rfl

theorem areTextual_entries (textual : isTextual c) (mapping : c.entries? = some entries) :
    areTextual entries := by
  cases c with
  | dict | proxy =>
    cases mapping
    exact textual
  | _ => cases mapping

theorem not_mem_leavesBelow_self (path : List String) (entries : Entries) (v : Value) :
    ⟨path, v⟩ ∉ leavesBelow path entries := by
  intro mem
  obtain ⟨name, names, keys⟩ := keys_of_mem_leavesBelow path entries mem
  exact List.cons_ne_nil name names (List.self_eq_append_right.1 keys)

theorem eq_of_leavesAt_of_bare {path : List String} {v : Value} (bare : v.entries? = none)
    (same : leavesAt path c = leavesAt path v) : c = v := by
  rw [leavesAt_of_bare bare] at same
  have mem : ⟨path, v⟩ ∈ leavesAt path c := same ▸ List.mem_singleton_self _
  cases c with
  | dict entries | proxy _ entries => exact absurd mem (not_mem_leavesBelow_self path entries v)
  | _ => exact (Leaf.mk.inj (List.mem_singleton.1 mem)).2.symm

theorem name_eq_of_mem_leavesAt {path names : List String} {own name : String} {v : Value}
    (mem : ⟨path ++ name :: names, v⟩ ∈ leavesAt (path ++ [own]) c) : own = name := by
  obtain ⟨others, keys⟩ := keys_of_mem_leavesAt (path ++ [own]) c mem
  rw [List.append_assoc, List.append_cancel_left_eq] at keys
  exact (List.cons.inj keys).1.symm

mutual

theorem mem_leavesAt_iff (path names : List String) (c v : Value) (textual : isTextual c) :
    ⟨path ++ names, v⟩ ∈ leavesAt path c ↔ c.reach? names = some v ∧ v.entries? = none := by
  cases c with
  | dict entries | proxy _ entries => exact mem_leavesBelow_iff path names entries v textual rfl
  | _ =>
    rw [leavesAt_of_bare rfl, List.mem_singleton, Leaf.mk.injEq, List.append_right_eq_self]
    constructor
    · rintro ⟨rfl, rfl⟩
      exact ⟨rfl, rfl⟩
    · rintro ⟨found, -⟩
      obtain rfl := Value.eq_nil_of_reach?_of_bare rfl found
      exact ⟨rfl, (Option.some.inj found).symm⟩

theorem mem_leavesBelow_iff (path names : List String) (entries : List (Key × Value)) (v : Value)
    (textual : areTextual entries) {m : Value} (mapping : m.entries? = some entries) :
    ⟨path ++ names, v⟩ ∈ leavesBelow path entries ↔
      m.reach? names = some v ∧ v.entries? = none := by
  cases names with
  | nil =>
    rw [List.append_nil]
    refine iff_of_false (not_mem_leavesBelow_self path entries v) ?_
    rintro ⟨found, bare⟩
    cases found
    cases mapping.symm.trans bare
  | cons name names =>
    rw [Value.reach?_of_entries mapping]
    match entries with
    | [] => exact iff_of_false List.not_mem_nil (nomatch ·.1)
    | (k, c) :: rest =>
      obtain ⟨⟨own, rfl, fresh⟩, inner, later⟩ := areTextual_cons_iff.1 textual
      -- the mapping without its first entry is a mapping of its own
      have below := mem_leavesBelow_iff path (name :: names) rest v later (m := .dict rest) rfl
      rw [Value.reach?_of_entries rfl] at below
      rw [leavesBelow, List.mem_append, below, Entries.field?_cons]
      by_cases same : own = name
      · subst same
        rw [if_pos rfl, fresh, or_iff_left (nomatch ·.1), List.append_cons path own names]
        exact mem_leavesAt_iff (path ++ [own]) names c v inner
      · rw [if_neg same]
        exact or_iff_right fun mem => same (name_eq_of_mem_leavesAt mem)

end

theorem exists_reach?_of_mem {path : List String} (textual : areTextual entries) {m : Value}
    (mapping : m.entries? = some entries) {leaf : Leaf} (mem : leaf ∈ leavesBelow path entries) :
    ∃ name names, leaf.keys = path ++ name :: names ∧
      m.reach? (name :: names) = some leaf.value := by
  obtain ⟨name, names, keys⟩ := keys_of_mem_leavesBelow path entries mem
  obtain ⟨_, v⟩ := leaf
  cases keys
  exact ⟨name, names, rfl, ((mem_leavesBelow_iff path _ entries v textual mapping).1 mem).1⟩

/-- No path to a leaf goes on to another. -/
theorem eq_of_keys_prefix {path : List String} (textual : areTextual entries) {a b : Leaf}
    (ha : a ∈ leavesBelow path entries) (hb : b ∈ leavesBelow path entries)
    (before : a.keys <+: b.keys) : a = b := by
  obtain ⟨name, names, keys, here⟩ := exists_reach?_of_mem textual (m := .dict entries) rfl ha
  obtain ⟨name', names', keys', there⟩ := exists_reach?_of_mem textual (m := .dict entries) rfl hb
  rw [keys, keys', List.prefix_append_right_inj] at before
  obtain ⟨more, on⟩ := before
  rw [← on, Value.reach?_append, here] at there
  have bare := entries?_of_mem_leavesBelow path entries ha
  obtain rfl := Value.eq_nil_of_reach?_of_bare bare there
  obtain ⟨ka, va⟩ := a
  obtain ⟨kb, vb⟩ := b
  cases there
  cases keys
  rw [List.append_nil] at on
  cases on
  cases keys'
  rfl

/-- The first path leads to a place before that of the second: both go through one mapping, where
the key that the first goes on with stands before the key that the second does. -/
inductive Precedes (m : Value) : List String → List String → Prop where
  | part (shared : List String) {entries : Entries} {name name' : String}
      (mapping : (m.reach? shared).bind Value.entries? = some entries)
      (before : [Key.str name, .str name'].Sublist (Entries.keys entries)) (apart : name ≠ name')
      (names names' : List String) :
      Precedes m (shared ++ name :: names) (shared ++ name' :: names')

namespace Precedes

variable {m : Value} {names names' : List String}

theorem ne (h : Precedes m names names') : names ≠ names' := by
  cases h with
  | part _ _ _ apart =>
    rw [ne_eq, List.append_cancel_left_eq]
    exact fun same => apart (List.cons.inj same).1

theorem cons {own : String} (found : m.field? own = some c) (h : Precedes c names names') :
    Precedes m (own :: names) (own :: names') := by
  cases h with
  | part shared mapping before apart rest rest' =>
    refine .part (own :: shared) ?_ before apart rest rest'
    rw [Value.reach?_cons, found]
    exact mapping

theorem of_rest {own : String} {rest : Entries}
    (mapping : m.entries? = some ((.str own, c) :: rest))
    (fresh : Entries.field? rest own = none) (h : Precedes (.dict rest) names names') :
    Precedes m names names' := by
  cases h with
  | part shared inner before apart more more' =>
    cases shared with
    | nil =>
      cases inner
      exact .part [] mapping (before.cons _) apart more more'
    | cons name shared =>
      refine .part (name :: shared) ?_ before apart more more'
      rw [Value.reach?_of_entries rfl] at inner
      have other : own ≠ name := by
        rintro rfl
        rw [fresh] at inner
        cases inner
      rw [Value.reach?_of_entries mapping, Entries.field?_cons, if_neg other]
      exact inner

end Precedes

def LeafPrecedes (path : List String) (m : Value) (a b : Leaf) : Prop :=
  ∃ names names', a.keys = path ++ names ∧ b.keys = path ++ names' ∧ Precedes m names names'

mutual

theorem pairwise_leavesAt (path : List String) (c : Value) (textual : isTextual c) :
    (leavesAt path c).Pairwise (LeafPrecedes path c) := by
  cases c with
  | dict entries | proxy _ entries => exact pairwise_leavesBelow path entries textual rfl
  | _ => exact List.pairwise_singleton _ _

theorem pairwise_leavesBelow (path : List String) (entries : List (Key × Value))
    (textual : areTextual entries) {m : Value} (mapping : m.entries? = some entries) :
    (leavesBelow path entries).Pairwise (LeafPrecedes path m) := by
  match entries with
  | [] => exact .nil
  | (k, c) :: rest =>
    obtain ⟨⟨own, rfl, fresh⟩, inner, later⟩ := areTextual_cons_iff.1 textual
    have found : m.field? own = some c := by rw [Value.field?, mapping]; simp
    rw [leavesBelow, List.pairwise_append]
    -- within the first entry, within the others, and from the first entry to the others
    refine ⟨(pairwise_leavesAt (path ++ [own]) c inner).imp ?_,
      (pairwise_leavesBelow path rest later (m := .dict rest) rfl).imp ?_, ?_⟩
    · rintro a b ⟨names, names', keys, keys', order⟩
      rw [List.append_assoc] at keys keys'
      exact ⟨own :: names, own :: names', keys, keys', order.cons found⟩
    · rintro a b ⟨names, names', keys, keys', order⟩
      exact ⟨names, names', keys, keys', order.of_rest mapping fresh⟩
    · intro a ha b hb
      obtain ⟨names, keys⟩ := keys_of_mem_leavesAt (path ++ [own]) c ha
      obtain ⟨name', names', keys', there⟩ :=
        exists_reach?_of_mem later (m := .dict rest) rfl hb
      rw [Value.reach?_of_entries rfl] at there
      obtain ⟨w, at', -⟩ := Option.bind_eq_some_iff.1 there
      have behind : Key.str name' ∈ Entries.keys rest := Entries.mem_keys_of_field? at'
      have apart : own ≠ name' := by
        rintro rfl
        cases fresh.symm.trans at'
      rw [List.append_assoc] at keys
      refine ⟨own :: names, name' :: names', keys, keys', ?_⟩
      exact .part [] mapping ((List.singleton_sublist.2 behind).cons_cons _) apart _ _

end

mutual

/-- The value without the entries that ask for nothing, every mapping on the way a plain one. -/
def pruned : Value → Value
  | .dict entries => .dict (prunedEntries entries)
  | .proxy _ entries => .dict (prunedEntries entries)
  | v => v

def prunedEntries : List (Key × Value) → List (Key × Value)
  | [] => []
  | (k, c) :: rest =>
    if asks c then (k, pruned c) :: prunedEntries rest else prunedEntries rest

end

theorem prunedEntries_cons_of_asks {k : Key} {rest : Entries} (asking : asks c) :
    prunedEntries ((k, c) :: rest) = (k, pruned c) :: prunedEntries rest := by
  rw [prunedEntries, if_pos asking]

theorem prunedEntries_cons_of_idle {k : Key} {rest : Entries} (idle : asks c = false) :
    prunedEntries ((k, c) :: rest) = prunedEntries rest := by
  rw [prunedEntries, idle, if_neg Bool.false_ne_true]

theorem prunedEntries_eq_nil (idle : entriesAsk entries = false) : prunedEntries entries = [] := by
  induction entries with
  | nil => rfl
  | cons entry rest ih =>
    obtain ⟨first, others⟩ := Bool.or_eq_false_iff.1 idle
    rw [prunedEntries_cons_of_idle first, ih others]

theorem pruned_of_entries (mapping : c.entries? = some entries) :
    pruned c = .dict (prunedEntries entries) := by
  cases c with
  | dict | proxy =>
    cases mapping
    rfl
  | _ => cases mapping

mutual

theorem leavesAt_eq_nil_iff (path : List String) (c : Value) :
    leavesAt path c = [] ↔ asks c = false := by
  cases c with
  | dict entries | proxy _ entries => exact leavesBelow_eq_nil_iff path entries
  | _ => simp [leavesAt, asks]

theorem leavesBelow_eq_nil_iff (path : List String) (entries : List (Key × Value)) :
    leavesBelow path entries = [] ↔ entriesAsk entries = false := by
  match entries with
  | [] => exact iff_of_true rfl rfl
  | (k, c) :: rest =>
    rw [leavesBelow, entriesAsk, List.append_eq_nil_iff, Bool.or_eq_false_iff,
      leavesAt_eq_nil_iff (path ++ [k.name]) c, leavesBelow_eq_nil_iff path rest]

end

mutual

@[simp] theorem leavesAt_pruned (path : List String) (c : Value) :
    leavesAt path (pruned c) = leavesAt path c := by
  cases c with
  | dict entries | proxy _ entries => exact leavesBelow_prunedEntries path entries
  | _ => rfl

@[simp] theorem leavesBelow_prunedEntries (path : List String) (entries : List (Key × Value)) :
    leavesBelow path (prunedEntries entries) = leavesBelow path entries := by
  match entries with
  | [] => rfl
  | (k, c) :: rest =>
    rw [leavesBelow]
    cases asking : asks c with
    | true =>
      rw [prunedEntries_cons_of_asks asking, leavesBelow, leavesAt_pruned (path ++ [k.name]) c,
        leavesBelow_prunedEntries path rest]
    | false =>
      rw [prunedEntries_cons_of_idle asking, (leavesAt_eq_nil_iff (path ++ [k.name]) c).2 asking,
        List.nil_append, leavesBelow_prunedEntries path rest]

end

private theorem filter_leavesBelow (path : List String) {own : String} {rest : Entries}
    (textual : areTextual ((.str own, c) :: rest)) :
    (leavesBelow path ((.str own, c) :: rest)).filter
        (fun leaf => (path ++ [own]).isPrefixOf leaf.keys)
      = leavesAt (path ++ [own]) c := by
  obtain ⟨⟨_, same, fresh⟩, -, later⟩ := areTextual_cons_iff.1 textual
  cases same
  have first : ∀ leaf ∈ leavesAt (path ++ [own]) c, (path ++ [own]).isPrefixOf leaf.keys := by
    intro leaf mem
    obtain ⟨names, keys⟩ := keys_of_mem_leavesAt (path ++ [own]) c mem
    rw [List.isPrefixOf_iff_prefix, keys]
    exact List.prefix_append _ _
  have others : ∀ leaf ∈ leavesBelow path rest, ¬ (path ++ [own]).isPrefixOf leaf.keys := by
    intro leaf mem through
    obtain ⟨name, names, keys, found⟩ := exists_reach?_of_mem later (m := .dict rest) rfl mem
    rw [List.isPrefixOf_iff_prefix, keys, List.prefix_append_right_inj, List.cons_prefix_cons]
      at through
    rw [Value.reach?_of_entries rfl, ← through.1, fresh] at found
    cases found
  rw [leavesBelow, List.filter_append, Key.name, List.filter_eq_self.2 first,
    List.filter_eq_nil_iff.2 others, List.append_nil]

private theorem exists_first_asking (asking : entriesAsk entries) (textual : areTextual entries) :
    ∃ own c rest, areTextual ((.str own, c) :: rest) ∧ asks c ∧
      prunedEntries entries = (.str own, pruned c) :: prunedEntries rest ∧
      ∀ path, leavesBelow path entries = leavesBelow path ((.str own, c) :: rest) := by
  induction entries with
  | nil => cases asking
  | cons entry rest ih =>
    obtain ⟨k, c⟩ := entry
    cases here : asks c with
    | true =>
      obtain ⟨⟨own, rfl, fresh⟩, inner, later⟩ := areTextual_cons_iff.1 textual
      exact ⟨own, c, rest, textual, here, prunedEntries_cons_of_asks here, fun _ => rfl⟩
    | false =>
      rw [entriesAsk, here, Bool.false_or] at asking
      obtain ⟨own, c', rest', textual', asks', pruned', leaves'⟩ :=
        ih asking (areTextual_cons_iff.1 textual).2.2
      refine ⟨own, c', rest', textual', asks', ?_, fun path => ?_⟩
      · rw [prunedEntries_cons_of_idle here, pruned']
      · rw [leavesBelow, (leavesAt_eq_nil_iff _ c).2 here, List.nil_append, leaves']

private theorem leaves_inj {path : List String} {own own' : String} {c' : Value}
    {rest rest' : Entries}
    (textual : areTextual ((.str own, c) :: rest))
    (textual' : areTextual ((.str own', c') :: rest')) (asking : asks c) (asking' : asks c')
    (same : leavesBelow path ((.str own, c) :: rest)
      = leavesBelow path ((.str own', c') :: rest')) :
    own = own' ∧ leavesAt (path ++ [own]) c = leavesAt (path ++ [own]) c' ∧
      leavesBelow path rest = leavesBelow path rest' := by
  have owns : own = own' := by
    have held : leavesAt (path ++ [own]) c ≠ [] := by simp [leavesAt_eq_nil_iff, asking]
    have held' : leavesAt (path ++ [own']) c' ≠ [] := by simp [leavesAt_eq_nil_iff, asking']
    obtain ⟨first, others, cons⟩ := List.exists_cons_of_ne_nil held
    obtain ⟨first', others', cons'⟩ := List.exists_cons_of_ne_nil held'
    obtain ⟨names, keys⟩ := keys_of_mem_leavesAt _ c (cons ▸ List.mem_cons_self)
    obtain ⟨names', keys'⟩ := keys_of_mem_leavesAt _ c' (cons' ▸ List.mem_cons_self)
    have heads := congrArg List.head? same
    rw [leavesBelow, leavesBelow, Key.name, Key.name, cons, cons', List.cons_append,
      List.cons_append, List.head?_cons, List.head?_cons, Option.some.injEq] at heads
    rw [heads, keys', List.append_assoc, List.append_assoc, List.append_cancel_left_eq] at keys
    exact (List.cons.inj keys).1.symm
  subst owns
  have here : leavesAt (path ++ [own]) c = leavesAt (path ++ [own]) c' := by
    rw [← filter_leavesBelow path textual, same, filter_leavesBelow path textual']
  refine ⟨rfl, here, ?_⟩
  rw [leavesBelow, leavesBelow, Key.name, here] at same
  exact List.append_cancel_left same

mutual

-- The recursion goes through the first value alone: of the second only what its leaves say is used.
theorem pruned_eq_of_leavesAt (path : List String) (c c' : Value) (textual : isTextual c)
    (textual' : isTextual c') (same : leavesAt path c = leavesAt path c') :
    pruned c = pruned c' := by
  cases c with
  | dict entries | proxy _ entries =>
    cases mapping : c'.entries? with
    | some entries' =>
      rw [leavesAt_of_entries mapping] at same
      rw [pruned_of_entries mapping]
      exact congrArg Value.dict (prunedEntries_eq_of_leavesBelow path entries entries' textual
        (areTextual_entries textual' mapping) same)
    | none => rw [eq_of_leavesAt_of_bare mapping same]
  | _ => rw [eq_of_leavesAt_of_bare rfl same.symm]

theorem prunedEntries_eq_of_leavesBelow (path : List String) (entries entries' : List (Key × Value))
    (textual : areTextual entries) (textual' : areTextual entries')
    (same : leavesBelow path entries = leavesBelow path entries') :
    prunedEntries entries = prunedEntries entries' := by
  match entries with
  | [] =>
    have idle := (leavesBelow_eq_nil_iff path entries').1 same.symm
    exact (prunedEntries_eq_nil idle).symm
  | (k, c) :: rest =>
    obtain ⟨⟨own, rfl, -⟩, inner, later⟩ := areTextual_cons_iff.1 textual
    cases asking : asks c with
    | false =>
      rw [leavesBelow, (leavesAt_eq_nil_iff _ c).2 asking, List.nil_append] at same
      rw [prunedEntries_cons_of_idle asking]
      exact prunedEntries_eq_of_leavesBelow path rest entries' later textual' same
    | true =>
      have asking' : entriesAsk entries' := by
        rw [← Bool.not_eq_false, ← leavesBelow_eq_nil_iff path, ← same, leavesBelow_eq_nil_iff,
          entriesAsk, asking]
        simp
      obtain ⟨own', c', rest', textual', asks', pruned', leaves'⟩ :=
        exists_first_asking asking' textual'
      rw [leaves'] at same
      obtain ⟨rfl, here, others⟩ := leaves_inj textual textual' asking asks' same
      obtain ⟨-, inner', later'⟩ := areTextual_cons_iff.1 textual'
      rw [pruned', prunedEntries_cons_of_asks asking,
        pruned_eq_of_leavesAt (path ++ [own]) c c' inner inner' here,
        prunedEntries_eq_of_leavesBelow path rest rest' later later' others]

end

mutual

theorem isNameable_of_isTextual (c : Value) (textual : isTextual c) : isNameable c := by
  cases c with
  | dict entries | proxy _ entries => exact areNameable_of_areTextual entries textual
  | _ => rfl

theorem areNameable_of_areTextual (entries : List (Key × Value)) (textual : areTextual entries) :
    areNameable entries := by
  match entries with
  | [] => rfl
  | (k, c) :: rest =>
    obtain ⟨⟨own, rfl, -⟩, inner, later⟩ := areTextual_cons_iff.1 textual
    rw [areNameable, isNameable_of_isTextual c inner, areNameable_of_areTextual rest later]
    rfl

end

theorem mem_leavesBelow_congr (path path' : List String) (textual : areTextual entries)
    (names : List String) (v : Value) :
    ⟨path ++ names, v⟩ ∈ leavesBelow path entries ↔
      ⟨path' ++ names, v⟩ ∈ leavesBelow path' entries :=
  (mem_leavesBelow_iff path names entries v textual (m := .dict entries) rfl).trans
    (mem_leavesBelow_iff path' names entries v textual rfl).symm

theorem leaves_subset {entries' : Entries} {path : List String} (textual : areTextual entries)
    (textual' : areTextual entries')
    (among : leavesBelow path entries ⊆ leavesBelow path entries') :
    leaves entries ⊆ leaves entries' := by
  rintro ⟨names, v⟩ mem
  refine (mem_leavesBelow_congr [] path textual' names v).2 (among ?_)
  exact (mem_leavesBelow_congr [] path textual names v).1 mem

/-- The leaves below a path, in the order in which a walk from key to key comes to them, each begin
with that path; no two have the same keys and none goes on where another ends. A path that is not
empty leads to a value that is no mapping exactly when that value is the leaf there. So two
conditions have the same leaves exactly when they differ only in entries that ask for nothing, and
if they have the same leaves in any order, they accept the same envelopes. -/
theorem leaves_determine_condition {η : Type} (path : List String) (m : Value) (entries : Entries)
    (mapping : m.entries? = some entries) (textual : areTextual entries) :
    (leavesBelow path entries).Pairwise (LeafPrecedes path m) ∧
    (∀ leaf ∈ leavesBelow path entries, path <+: leaf.keys) ∧
    ((leavesBelow path entries).map (·.keys)).Nodup ∧
    (∀ a ∈ leavesBelow path entries, ∀ b ∈ leavesBelow path entries,
      a.keys <+: b.keys → a = b) ∧
    (∀ names v, names ≠ [] →
      (m.reach? names = some v ∧ v.entries? = none ↔
        ⟨path ++ names, v⟩ ∈ leavesBelow path entries)) ∧
    ∀ entries', areTextual entries' →
      (leavesBelow path entries = leavesBelow path entries' ↔
        prunedEntries entries = prunedEntries entries') ∧
      ((∀ leaf, leaf ∈ leavesBelow path entries ↔ leaf ∈ leavesBelow path entries') →
        ∀ (index index' : Int) (handler handler' : η), ∃ rule rule',
          Rule.build index entries handler = .ok rule ∧
          Rule.build index' entries' handler' = .ok rule' ∧
          ∀ e : Envelope, rule.accepts e = rule'.accepts e) := by
  have order := pairwise_leavesBelow path entries textual mapping
  refine ⟨order, ?_, ?_, fun a ha b hb => eq_of_keys_prefix textual ha hb,
    fun names v _ => (mem_leavesBelow_iff path names entries v textual mapping).symm, ?_⟩
  · intro leaf mem
    obtain ⟨name, names, keys⟩ := keys_of_mem_leavesBelow path entries mem
    rw [keys]
    exact List.prefix_append path _
  · rw [List.Nodup, List.pairwise_map]
    refine order.imp ?_
    rintro a b ⟨names, names', keys, keys', precedes⟩ same
    rw [keys, keys', List.append_cancel_left_eq] at same
    exact precedes.ne same
  · intro entries' textual'
    constructor
    · constructor
      · exact prunedEntries_eq_of_leavesBelow path entries entries' textual textual'
      · intro same
        rw [← leavesBelow_prunedEntries, same, leavesBelow_prunedEntries]
    · intro same index index' handler handler'
      refine ⟨_, _, if_pos (areNameable_of_areTextual entries textual),
        if_pos (areNameable_of_areTextual entries' textual'), fun e => ?_⟩
      have fewer := leaves_subset textual textual' fun leaf mem => (same leaf).1 mem
      have more := leaves_subset textual' textual fun leaf mem => (same leaf).2 mem
      exact Bool.eq_iff_iff.2 ⟨Rule.accepts_of_subset more, Rule.accepts_of_subset fewer⟩

theorem leaves_determine_condition_empty_mapping :
    let user : Value := .ofFields [("role", .null), ("gone", .dict []), ("age", .int 7)]
    let kind : Entries := [(.str "type", .str "a")]
    let entries : Entries :=
      [(.str "data", .ofFields [("user", user)]), (.str "attributes", .proxy 1 kind)]
    let user' : Value := .ofFields [("role", .null), ("age", .int 7)]
    let entries' : Entries :=
      [(.str "data", .ofFields [("user", user')]), (.str "attributes", .dict kind)]
    areTextual entries ∧ areTextual entries' ∧
      leavesBelow ["top"] entries = [⟨["top", "data", "user", "role"], .null⟩,
        ⟨["top", "data", "user", "age"], .int 7⟩, ⟨["top", "attributes", "type"], .str "a"⟩] ∧
      prunedEntries entries = prunedEntries entries' ∧
      (Value.dict entries).reach? ["data", "user", "role"] = some .null ∧
      ∃ rule rule', Rule.build 0 entries () = .ok rule ∧ Rule.build 1 entries' () = .ok rule' ∧
        ∀ e : Envelope, rule.accepts e = rule'.accepts e := by
  intro user kind entries user' entries'
  have textual : areTextual entries := by decide +kernel
  have textual' : areTextual entries' := by decide +kernel
  have leaves : leavesBelow ["top"] entries = [⟨["top", "data", "user", "role"], .null⟩,
    ⟨["top", "data", "user", "age"], .int 7⟩, ⟨["top", "attributes", "type"], .str "a"⟩] := rfl
  have leaves' : leavesBelow ["top"] entries = leavesBelow ["top"] entries' := rfl
  obtain ⟨-, -, -, -, paths, others⟩ :=
    leaves_determine_condition (η := Unit) ["top"] (.dict entries) entries rfl textual
  have role : ⟨["top", "data", "user", "role"], .null⟩ ∈ leavesBelow ["top"] entries :=
    leaves ▸ List.mem_cons_self
  obtain ⟨pruned, accepted⟩ := others entries' textual'
  exact ⟨textual, textual', leaves, pruned.1 leaves',
    ((paths ["data", "user", "role"] .null (by decide)).2 role).1,
    accepted (fun leaf => by rw [leaves']) 0 1 () ()⟩

end Condition
end PushDispatch
