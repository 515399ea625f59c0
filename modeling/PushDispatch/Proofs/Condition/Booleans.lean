import PushDispatch.Envelope.Decode
import PushDispatch.Proofs.Value.Places
import PushDispatch.Table

/-! Booleans in what a rule accepts. At a leaf a boolean stands against the same boolean alone.
Inside lists and mappings it may also stand against the number one or zero, unless the expected
value hides neither booleans nor these numbers; then the two agree on booleans everywhere. -/
namespace PushDispatch

namespace Value

/-- A boolean, or a number that a boolean equals. -/
def isBit (v : Value) : Bool :=
  match v.extent? with
  | some x => x.same (.ofInt 0) || x.same (.ofInt 1)
  | none => false

end Value

namespace Key

mutual

def holdsBit : Key → Bool
  | .tuple items => itemsHoldBit items
  | k => k.toValue.isBit

def itemsHoldBit : List Key → Bool
  | [] => false
  | k :: ks => k.holdsBit || itemsHoldBit ks

end

end Key

namespace Value

mutual

/-- Is the value a bit, or is there one inside it, at any depth and among its keys? -/
def holdsBit : Value → Bool
  | .list items => itemsHoldBit items
  | .tuple items => itemsHoldBit items
  | .dict entries => entriesHoldBit entries
  | .proxy _ entries => entriesHoldBit entries
  | .message _ _ data attributes => holdsBit data || holdsBit attributes
  | .envelope _ _ _ data attributes => holdsBit data || holdsBit attributes
  | v => v.isBit

def itemsHoldBit : List Value → Bool
  | [] => false
  | v :: vs => holdsBit v || itemsHoldBit vs

def entriesHoldBit : List (Key × Value) → Bool
  | [] => false
  | (k, v) :: rest => k.holdsBit || holdsBit v || entriesHoldBit rest

end

def hidesBit (v : Value) : Bool := v.holdsBit && !v.isBit

mutual

@[simp] theorem holdsBit_toValue (k : Key) : k.toValue.holdsBit = k.holdsBit := by
  cases k with
  | tuple items => exact itemsHoldBit_toValues items
  | _ => rfl

@[simp] theorem itemsHoldBit_toValues (ks : List Key) :
    itemsHoldBit (Key.toValues ks) = Key.itemsHoldBit ks := by
  match ks with
  | [] => rfl
  | k :: ks =>
    rw [Key.toValues, itemsHoldBit, Key.itemsHoldBit, holdsBit_toValue k, itemsHoldBit_toValues ks]

end

theorem holdsBit_of_isBit {v : Value} (bit : v.isBit) : v.holdsBit := by
  cases v with
  | bool | int | float => exact bit
  | _ => cases bit

theorem itemsHoldBit_of_mem {items : List Value} {w : Value} (mem : w ∈ items)
    (holds : w.holdsBit) : itemsHoldBit items := by
  induction mem with
  | head => simp [itemsHoldBit, holds]
  | tail _ _ ih => simp [itemsHoldBit, ih]

theorem entriesHoldBit_of_mem {entries : Entries} {entry : Key × Value} (mem : entry ∈ entries)
    (holds : entry.1.holdsBit ∨ entry.2.holdsBit) : entriesHoldBit entries := by
  induction mem with
  | head => simp [entriesHoldBit, holds]
  | tail _ _ ih => simp [entriesHoldBit, ih]

variable {v w actual expected : Value}

theorem holdsBit_of_entry? {k : Key} {entry : Key × Value} (found : v.entry? k = some entry)
    (holds : entry.1.holdsBit ∨ entry.2.holdsBit) : v.holdsBit ∧ v.isBit = false := by
  obtain ⟨entries, here, found⟩ := Option.bind_eq_some_iff.1 found
  have mem : entry ∈ entries := List.mem_of_find?_eq_some found
  cases v with
  | dict | proxy =>
    cases here
    exact ⟨entriesHoldBit_of_mem mem holds, rfl⟩
  | _ => cases here

theorem holdsBit_of_step? {p : Place} (found : v.step? p = some w) (holds : w.holdsBit) :
    v.holdsBit ∧ v.isBit = false := by
  cases p with
  | item i =>
    obtain ⟨items, here, found⟩ := Option.bind_eq_some_iff.1 found
    have mem := List.mem_of_getElem? found
    cases v with
    | list | tuple =>
      cases here
      exact ⟨itemsHoldBit_of_mem mem holds, rfl⟩
    | _ => cases here
  | valueAt k =>
    obtain ⟨entry, here, rfl⟩ := Option.map_eq_some_iff.1 found
    exact holdsBit_of_entry? here (.inr holds)
  | keyAt k =>
    obtain ⟨entry, here, rfl⟩ := Option.map_eq_some_iff.1 found
    rw [holdsBit_toValue] at holds
    exact holdsBit_of_entry? here (.inl holds)
  | data | attributes =>
    obtain ⟨parts, here, rfl⟩ := Option.map_eq_some_iff.1 found
    cases v with
    | message | envelope =>
      cases here
      simp [Value.holdsBit, holds, Value.isBit, Value.extent?]
    | _ => cases here

theorem hidesBit_of_at? {p : Place} {path : List Place} (found : v.at? (p :: path) = some w)
    (bit : w.isBit) : v.hidesBit := by
  induction path generalizing v p with
  | nil =>
    obtain ⟨u, step, rest⟩ := Option.bind_eq_some_iff.1 found
    cases rest
    obtain ⟨holds, container⟩ := holdsBit_of_step? step (holdsBit_of_isBit bit)
    simp [hidesBit, holds, container]
  | cons q path ih =>
    obtain ⟨u, step, rest⟩ := Option.bind_eq_some_iff.1 found
    have inner := ih rest
    rw [hidesBit, Bool.and_eq_true] at inner
    obtain ⟨holds, container⟩ := holdsBit_of_step? step inner.1
    simp [hidesBit, holds, container]

theorem same_bool_self (b : Bool) : (Value.bool b).same (.bool b) := by
  have self : ∀ n, (Double.Extent.ofInt n).same (.ofInt n) := fun n =>
    Double.Extent.same_iff.2 ⟨rfl, nofun⟩
  simp only [same, sameNumber, extent?, self]

theorem isBit_of_same {b : Bool} (h : (Value.bool b).same w) : w.isBit := by
  obtain ⟨x, here, equal⟩ : ∃ x, w.extent? = some x ∧ (Double.Extent.ofInt b.toNat).same x := by
    cases w <;> simp_all [same, sameNumber, extent?]
  rw [Double.Extent.same_comm] at equal
  unfold isBit
  rw [here]
  cases b with
  | false => simp only [show x.same (.ofInt 0) = true from equal, Bool.true_or]
  | true => simp only [show x.same (.ofInt 1) = true from equal, Bool.or_true]

theorem isBit_bool (b : Bool) : (Value.bool b).isBit := isBit_of_same (same_bool_self b)

/-- At a leaf two booleans stand against each other, or none does and the values are equal. -/
theorem matchesLeaf_cases (h : actual.matchesLeaf expected) :
    (∃ b, actual = .bool b ∧ expected = .bool b) ∨
      (∀ b, actual ≠ .bool b) ∧ (∀ b, expected ≠ .bool b) ∧ actual.same expected := by
  unfold matchesLeaf at h
  split at h
  · left
    split at h
    · rw [beq_iff_eq] at h
      exact ⟨_, rfl, congrArg Value.bool h.symm⟩
    · cases h
  · rename_i neither
    right
    refine ⟨?_, ?_, h⟩
    · rintro b rfl
      exact neither rfl
    · rintro b rfl
      exact neither (Bool.or_true _)

/-- Where the expected value hides no bit, the two hold the same booleans at the same places. -/
theorem at?_eq_bool_iff_of_matchesLeaf (h : actual.matchesLeaf expected)
    (plain : expected.hidesBit = false) (path : List Place) (b : Bool) :
    actual.at? path = some (.bool b) ↔ expected.at? path = some (.bool b) := by
  rcases matchesLeaf_cases h with ⟨c, rfl, rfl⟩ | ⟨notBool, notBool', equal⟩
  · exact Iff.rfl
  cases path with
  | nil =>
    constructor
    · intro here
      exact absurd (Option.some.inj here) (notBool b)
    · intro here
      exact absurd (Option.some.inj here) (notBool' b)
  | cons p path =>
    have nowhere : ∀ w, expected.at? (p :: path) = some w → w.isBit = false := by
      intro w there
      rw [Bool.eq_false_iff]
      intro bit
      rw [hidesBit_of_at? there bit] at plain
      cases plain
    constructor
    · intro here
      obtain ⟨w, there, same⟩ := exists_at?_of_same equal here
      cases (nowhere w there).symm.trans (isBit_of_same same)
    · intro there
      cases (nowhere _ there).symm.trans (isBit_bool b)

end Value

namespace Rule

variable {η : Type}

theorem exists_matchesLeaf_of_accepts {r : Rule η} {e : Envelope} (met : r.accepts e) {leaf : Leaf}
    (mem : leaf ∈ r.leaves) :
    ∃ actual, e.subject.reach? leaf.keys = some actual ∧ actual.matchesLeaf leaf.value := by
  have holds := List.all_eq_true.1 met leaf mem
  unfold Leaf.holds at holds
  split at holds
  · cases holds
  · rename_i actual here
    exact ⟨actual, here, holds⟩

/-- Where the rule of a condition accepts an envelope, the value at every leaf is the same boolean
as is expected there, or neither is one. Inside the value, a boolean stands against a boolean or a
number that equals it, and against the same boolean alone if the leaf hides no bit. -/
theorem accepts_agrees_on_booleans (index : Int) (condition : Entries) (handler : η) (e : Envelope)
    (met : (compile index condition handler).accepts e) :
    ∀ leaf ∈ Condition.leaves condition, ∃ actual, e.subject.reach? leaf.keys = some actual ∧
      (∀ b, actual = .bool b ↔ leaf.value = .bool b) ∧
      (∀ path b, actual.at? path = some (.bool b) →
        ∃ w, leaf.value.at? path = some w ∧ (Value.bool b).same w) ∧
      (leaf.value.hidesBit = false → ∀ path b,
        actual.at? path = some (.bool b) ↔ leaf.value.at? path = some (.bool b)) := by
  intro leaf mem
  obtain ⟨actual, here, matched⟩ := exists_matchesLeaf_of_accepts met mem
  refine ⟨actual, here, ?_, ?_, Value.at?_eq_bool_iff_of_matchesLeaf matched⟩
  · intro b
    rcases Value.matchesLeaf_cases matched with ⟨c, rfl, same⟩ | ⟨notBool, notBool', -⟩
    · rw [same]
    · exact iff_of_false (notBool b) (notBool' b)
  · intro path b found
    rcases Value.matchesLeaf_cases matched with ⟨c, rfl, same⟩ | ⟨-, -, equal⟩
    · rw [same]
      exact ⟨_, found, Value.same_bool_self b⟩
    · exact Value.exists_at?_of_same equal found

theorem accepts_agrees_on_booleans_listed_sizes :
    let sizes := Value.list [.int 2, .str "L"]
    let found := Value.list [.float ⟨0x4000000000000000⟩, .str "L"]
    let condition : Entries := [(.str "data", .ofFields [("new", .bool true), ("sizes", sizes)])]
    let e : Envelope := ⟨"s", "1", none, some [(.str "new", .bool true), (.str "sizes", found)], []⟩
    (compile 0 condition ()).accepts e ∧ sizes.hidesBit = false ∧
      (∀ path b, found.at? path = some (.bool b) ↔ sizes.at? path = some (.bool b)) ∧
      e.subject.reach? ["data", "new"] = some (.bool true) := by
  intro sizes found condition e
  have met : (compile 0 condition ()).accepts e := by decide +kernel
  have plain : sizes.hidesBit = false := by decide +kernel
  have leaves : Condition.leaves condition =
      [⟨["data", "new"], .bool true⟩, ⟨["data", "sizes"], sizes⟩] := rfl
  have agree := accepts_agrees_on_booleans 0 condition () e met
  rw [leaves, List.forall_mem_cons, List.forall_mem_singleton] at agree
  obtain ⟨⟨new, here, booleans, -⟩, ⟨list, there, -, -, everywhere⟩⟩ := agree
  cases there
  rw [(booleans true).2 rfl] at here
  exact ⟨met, plain, everywhere plain, here⟩

/-- A flag is expected in a list, and the number one is taken for it. -/
theorem accepts_mistakes_listed_number :
    let raw := Value.ofFields [("subscription", .str "s"), ("message",
      .ofFields [("messageId", .str "1"), ("data", .ofFields [("flags", .list [.int 1])])])]
    let e : Envelope := ⟨"s", "1", none, some [(.str "flags", .list [.int 1])], []⟩
    let leaf : Leaf := ⟨["data", "flags"], .list [.bool true]⟩
    let condition : Entries := [(.str "data", .ofFields [("flags", .list [.bool true])])]
    (∀ depth, Envelope.decode depth raw = .ok e) ∧ (compile 0 condition ()).accepts e ∧
      Condition.leaves condition = [leaf] ∧
      (e.subject.reach? leaf.keys).bind (·.at? [.item 0]) = some (.int 1) ∧
      leaf.value.at? [.item 0] = some (.bool true) := by
  intro raw e leaf condition
  have met : (compile 0 condition ()).accepts e := by decide +kernel
  exact ⟨fun _ => rfl, met, rfl, rfl, rfl⟩

end Rule
end PushDispatch
