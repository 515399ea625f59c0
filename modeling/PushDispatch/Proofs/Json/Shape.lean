import PushDispatch.Json.Reader
import PushDispatch.Proofs.Except

/-! JSON values among all values: nothing but null, booleans, numbers, texts, lists, and mappings
whose keys are texts. Reading JSON text never gives anything else. -/
namespace PushDispatch

namespace Value

mutual

def isJson : Value → Bool
  | .null | .bool _ | .int _ | .float _ | .str _ => true
  | .list items => areJson items
  | .dict entries => entriesJson entries
  | .tuple _ | .proxy .. | .thunk _ | .message .. | .envelope .. => false

def areJson : List Value → Bool
  | [] => true
  | v :: vs => isJson v && areJson vs

def entriesJson : List (Key × Value) → Bool
  | [] => true
  | (k, v) :: rest => k.text?.isSome && isJson v && entriesJson rest

end

theorem entriesJson_iff {entries : Entries} :
    entriesJson entries ↔ ∀ entry ∈ entries, (∃ name, entry.1 = .str name) ∧ entry.2.isJson := by
  induction entries with
  | nil => simp [entriesJson]
  | cons entry rest ih =>
    obtain ⟨k, v⟩ := entry
    have named : k.text?.isSome ↔ ∃ name, k = .str name := by
      cases k <;> simp [Key.text?]
    simp [entriesJson, ih, named, and_assoc]

theorem entriesJson_insert {entries : Entries} {name : String} {v : Value}
    (h : entriesJson entries) (hv : v.isJson) :
    entriesJson (Entries.insert entries (.str name) v) := by
  induction entries with
  | nil => simp [Entries.insert, entriesJson, Key.text?, hv]
  | cons entry rest ih =>
    obtain ⟨k, w⟩ := entry
    simp only [entriesJson, Bool.and_eq_true] at h
    rw [Entries.insert]
    split <;> simp [entriesJson, h.1.1, h.1.2, h.2, hv, ih]

theorem entriesJson_collapse {entries : Entries} (h : entriesJson entries) :
    entriesJson (Entries.collapse entries) := by
  have grow : ∀ (more acc : Entries), entriesJson more → entriesJson acc →
      entriesJson (more.foldl (fun acc e => Entries.insert acc e.1 e.2) acc) := by
    intro more
    induction more with
    | nil => exact fun _ _ hacc => hacc
    | cons entry rest ih =>
      intro acc hmore hacc
      obtain ⟨⟨name, hk⟩, hv⟩ := entriesJson_iff.1 hmore entry (by simp)
      rw [List.foldl_cons, hk]
      exact ih _ (entriesJson_iff.2 fun e he => entriesJson_iff.1 hmore e (by simp [he]))
        (entriesJson_insert hacc hv)
  exact grow entries [] h rfl

theorem isJson_of_field? {entries : Entries} (h : entriesJson entries) {name : String} {v : Value}
    (found : Entries.field? entries name = some v) : v.isJson := by
  induction entries with
  | nil => cases found
  | cons entry rest ih =>
    obtain ⟨k, w⟩ := entry
    simp only [entriesJson, Bool.and_eq_true] at h
    rw [Entries.field?, Entries.lookup?] at found
    split at found
    · cases found
      exact h.1.2
    · exact ih h.2 found

end Value

namespace Json

theorem isJson_of_boundedNumber {t : NumberToken} {v : Value} (h : boundedNumber t = some v) :
    v.isJson := by
  rw [boundedNumber] at h
  split at h
  · cases h
  · rw [exactNumber, Option.some.injEq] at h
    subst h
    split <;> rfl

theorem eq_some_of_orMalformed {α : Type} {x : Option α} {a : α} (h : orMalformed x = .ok a) :
    x = some a := by
  cases x with
  | none => cases h
  | some => exact congrArg some (Except.ok.inj h)

variable {rule : NumberRule}

theorem isJson_of_readNumber (hr : ∀ t v, rule t = some v → v.isJson) {cs rest : List Char}
    {v : Value} (h : readNumber rule cs = some (v, rest)) : v.isJson := by
  have token : ∀ {negative : Bool} {cs : List Char},
      ((takeNumber negative cs).bind fun p => (rule p.1).bind fun w => some (w, p.2))
        = some (v, rest) → v.isJson := by
    intro negative cs h
    obtain ⟨p, -, h⟩ := Option.bind_eq_some_iff.1 h
    obtain ⟨w, hw, h⟩ := Option.bind_eq_some_iff.1 h
    cases h
    exact hr p.1 _ hw
  unfold readNumber at h
  split at h
  · cases h
    rfl
  · cases h
    rfl
  · cases h
    rfl
  · exact token h
  · exact token h

/-- With this much fuel the three readers, which call each other, read nothing but JSON. -/
structure ReadsJson (rule : NumberRule) (fuel : Nat) : Prop where
  value : ∀ depth cs v rest, readValue rule fuel depth cs = .ok (v, rest) → v.isJson
  items : ∀ depth cs vs rest, readItems rule fuel depth cs = .ok (vs, rest) → Value.areJson vs
  members : ∀ depth cs es rest, readMembers rule fuel depth cs = .ok (es, rest) →
    Value.entriesJson es

namespace ReadsJson

variable {fuel depth : Nat} {cs rest : List Char}

theorem value_succ (h : ReadsJson rule fuel) (hr : ∀ t v, rule t = some v → v.isJson) {v : Value}
    (read : readValue rule (fuel + 1) depth cs = .ok (v, rest)) : v.isJson := by
  unfold readValue at read
  split at read
  · obtain ⟨p, -, hp⟩ := exists_of_map_eq_ok read
    cases hp
    rfl
  · split at read
    · cases read
    · split at read
      · cases read
        rfl
      · obtain ⟨p, hi, hp⟩ := exists_of_map_eq_ok read
        cases hp
        exact h.items _ _ _ _ hi
  · split at read
    · cases read
    · split at read
      · cases read
        rfl
      · obtain ⟨p, hm, hp⟩ := exists_of_map_eq_ok read
        cases hp
        exact Value.entriesJson_collapse (h.members _ _ _ _ hm)
  · cases read
    rfl
  · cases read
    rfl
  · cases read
    rfl
  · exact isJson_of_readNumber hr (eq_some_of_orMalformed read)

theorem items_succ (h : ReadsJson rule fuel) {vs : List Value}
    (read : readItems rule (fuel + 1) depth cs = .ok (vs, rest)) : Value.areJson vs := by
  unfold readItems at read
  obtain ⟨⟨v, more⟩, hv, read⟩ := exists_of_bind_eq_ok read
  have first := h.value _ _ _ _ hv
  dsimp only at read
  split at read
  · obtain ⟨p, hi, hp⟩ := exists_of_map_eq_ok read
    cases hp
    simp [Value.areJson, first, h.items _ _ _ _ hi]
  · cases read
    simp [Value.areJson, first]
  · cases read

theorem members_succ (h : ReadsJson rule fuel) {es : Entries}
    (read : readMembers rule (fuel + 1) depth cs = .ok (es, rest)) : Value.entriesJson es := by
  unfold readMembers at read
  split at read
  · obtain ⟨⟨name, more⟩, -, read⟩ := exists_of_bind_eq_ok read
    dsimp only at read
    split at read
    · obtain ⟨⟨v, more⟩, hv, read⟩ := exists_of_bind_eq_ok read
      have first := h.value _ _ _ _ hv
      dsimp only at read
      split at read
      · obtain ⟨p, hm, hp⟩ := exists_of_map_eq_ok read
        cases hp
        simp [Value.entriesJson, Key.text?, first, h.members _ _ _ _ hm]
      · cases read
        simp [Value.entriesJson, Key.text?, first]
      · cases read
    · cases read
  · cases read

end ReadsJson

theorem readsJson (hr : ∀ t v, rule t = some v → v.isJson) (fuel : Nat) : ReadsJson rule fuel := by
  induction fuel with
  | zero => constructor <;> simp [readValue, readItems, readMembers]
  | succ fuel ih =>
    exact ⟨fun _ _ _ _ => ih.value_succ hr, fun _ _ _ _ => ih.items_succ,
      fun _ _ _ _ => ih.members_succ⟩

theorem isJson_of_readBytes (hr : ∀ t v, rule t = some v → v.isJson) {depth : Nat} {bytes : Bytes}
    {v : Value} (h : readBytes rule depth bytes = .ok v) : v.isJson := by
  obtain ⟨cs, -, h⟩ := exists_of_bind_eq_ok h
  obtain ⟨⟨w, rest⟩, hw, h⟩ := exists_of_bind_eq_ok h
  dsimp only at h
  split at h
  · cases h
    exact (readsJson hr _).value _ _ _ _ hw
  · cases h

end Json
end PushDispatch
