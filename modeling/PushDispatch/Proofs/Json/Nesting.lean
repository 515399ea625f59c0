import PushDispatch.Json.Reader
import PushDispatch.Proofs.Except
import PushDispatch.Proofs.Json.Detection

/-! How deep a text nests. Reading is halted by the depth only in a text with more opening brackets
than that, and always in one that is nothing but such brackets. -/
namespace PushDispatch.Json

def isOpening (c : Char) : Bool := c == '[' || c == '\x7b'

/-- How many lists and objects a text opens at most, those in its strings included. -/
def opens (cs : List Char) : Nat := cs.countP isOpening

theorem opens_le_of_sublist {cs ds : List Char} (h : cs.Sublist ds) : opens cs ≤ opens ds :=
  h.countP_le

theorem opens_skipBlanks_le (cs : List Char) : opens (skipBlanks cs) ≤ opens cs :=
  opens_le_of_sublist (List.dropWhile_sublist _)

private theorem opens_le_of_skipBlanks {cs rest : List Char} {c : Char}
    (h : skipBlanks cs = c :: rest) :
    opens rest ≤ opens cs := by
  have here := opens_skipBlanks_le cs
  rw [h] at here
  exact Nat.le_trans (opens_le_of_sublist (List.sublist_cons_self c rest)) here

@[simp] theorem opens_cons {c : Char} (opening : isOpening c) (cs : List Char) :
    opens (c :: cs) = opens cs + 1 := List.countP_cons_of_pos opening

/-- Whatever was read is no longer there, and where the depth halted the reading too much was open.
-/
inductive Within {α : Type} (depth : Nat) (cs : List Char) :
    Except ReadError (α × List Char) → Prop where
  | ok {a : α} {rest : List Char} (le : opens rest ≤ opens cs) : Within depth cs (.ok (a, rest))
  | error {e : ReadError} (deep : ∀ isObject, e = .halted (.tooDeep isObject) → depth < opens cs) :
    Within depth cs (.error e)

def Shallow {α : Type} (x : Except ReadError α) : Prop :=
  ∀ isObject, x ≠ .error (.halted (.tooDeep isObject))

namespace Within

variable {α β : Type} {depth : Nat} {cs ds : List Char}

theorem mono {r : Except ReadError (α × List Char)} (h : Within depth cs r)
    (le : opens cs ≤ opens ds) : Within depth ds r := by
  cases h with
  | ok here => exact .ok (Nat.le_trans here le)
  | error deep => exact .error fun isObject same => Nat.lt_of_lt_of_le (deep isObject same) le

theorem of_sublist {r : Except ReadError (α × List Char)} (h : Within depth cs r)
    (sub : cs.Sublist ds) : Within depth ds r := h.mono (opens_le_of_sublist sub)

theorem map {r : Except ReadError (α × List Char)} (h : Within depth cs r) (f : α → β) :
    Within depth cs (r.map fun p => (f p.1, p.2)) := by
  cases h with
  | ok le => exact .ok le
  | error deep => exact .error deep

theorem bind {r : Except ReadError (α × List Char)} (h : Within depth cs r)
    {f : α × List Char → Except ReadError (β × List Char)}
    (later : ∀ a rest, opens rest ≤ opens cs → Within depth cs (f (a, rest))) :
    Within depth cs (r >>= f) := by
  cases h with
  | ok le => exact later _ _ le
  | error deep => exact .error deep

theorem shallow_bind {x : Except ReadError α} (h : Shallow x)
    {f : α → Except ReadError (β × List Char)} (later : ∀ a, Within depth cs (f a)) :
    Within depth cs (x >>= f) := by
  cases x with
  | ok a => exact later a
  | error e => exact .error fun isObject same => absurd (congrArg _ same) (h isObject)

theorem nested {r : Except ReadError (α × List Char)} (h : Within depth cs r) {c : Char}
    (opening : isOpening c) : Within (depth + 1) (c :: cs) r := by
  have more := opens_cons opening cs
  cases h with
  | ok le => exact .ok (by omega)
  | error deep => exact .error fun isObject same => more ▸ Nat.succ_lt_succ (deep isObject same)

theorem malformed : Within (α := α) depth cs (.error .malformed) := .error nofun

end Within

theorem shallow_orMalformed {α : Type} (x : Option α) : Shallow (orMalformed x) := by
  cases x <;> exact nofun

theorem shallow_character (n : Nat) : Shallow (character n) := by
  intro isObject halted
  rw [character] at halted
  cases read : Encoding.scalar n with
  | ok c =>
    rw [read] at halted
    cases halted
  | error cause =>
    rw [read] at halted
    cases cause <;> cases halted

theorem within_readString (depth : Nat) (cs : List Char) : Within depth cs (readString cs) := by
  fun_induction readString cs with
  | case1 => exact .malformed
  | case2 rest => exact .ok (opens_le_of_sublist (List.sublist_cons_self _ rest))
  | case3 a b c d rest pair unit =>
    have rest_le : rest.Sublist ('\\' :: 'u' :: a :: b :: c :: d :: rest) :=
      List.sublist_append_right ['\\', 'u', a, b, c, d] rest
    refine .shallow_bind (shallow_orMalformed _) fun high => ?_
    split
    · split
      · next a' b' c' d' rest =>
        have rest_le := (List.sublist_append_right ['\\', 'u', a', b', c', d'] rest).trans rest_le
        refine .shallow_bind (shallow_orMalformed _) fun low => ?_
        split
        · refine .shallow_bind (shallow_character _) fun ch => ?_
          exact (Within.of_sublist pair rest_le).map (ch :: ·)
        · exact .error nofun
      · exact .error nofun
    · exact .shallow_bind (shallow_character _) fun ch => (unit.of_sublist rest_le).map (ch :: ·)
  | case4 e rest _ ih =>
    refine .shallow_bind (shallow_orMalformed _) fun ch => ?_
    exact (ih.of_sublist (List.sublist_append_right ['\\', e] rest)).map (ch :: ·)
  | case5 => exact .malformed
  | case6 c rest _ _ _ _ ih => exact (ih.of_sublist (List.sublist_cons_self c rest)).map (c :: ·)

private theorem takeWhole_sublist {cs digits rest : List Char}
    (h : takeWhole cs = some (digits, rest)) :
    rest.Sublist cs := by
  unfold takeWhole at h
  split at h
  · cases h
    exact List.sublist_cons_self _ rest
  · split at h
    · cases h
      exact (List.dropWhile_sublist _).trans (List.sublist_cons_self _ _)
    · cases h
  · cases h

private theorem takeFraction_sublist (cs : List Char) : (takeFraction cs).2.Sublist cs := by
  unfold takeFraction
  split
  · split
    · exact List.Sublist.refl _
    · exact (List.dropWhile_sublist _).trans (List.sublist_cons_self _ _)
  · exact List.Sublist.refl _

private theorem takeSign_sublist (cs : List Char) : (takeSign cs).2.Sublist cs := by
  unfold takeSign
  split
  · exact List.sublist_cons_self _ _
  · exact List.sublist_cons_self _ _
  · exact List.Sublist.refl _

private theorem takeExponent_sublist (cs : List Char) : (takeExponent cs).2.Sublist cs := by
  unfold takeExponent
  split
  · next c rest =>
    split
    · dsimp only
      split
      · exact List.Sublist.refl _
      · exact ((List.dropWhile_sublist _).trans (takeSign_sublist rest)).trans
          (List.sublist_cons_self c rest)
    · exact List.Sublist.refl _
  · exact List.Sublist.refl _

private theorem takeNumber_sublist {negative : Bool} {cs rest : List Char} {token : NumberToken}
    (h : takeNumber negative cs = some (token, rest)) : rest.Sublist cs := by
  obtain ⟨⟨digits, more⟩, whole, h⟩ := Option.bind_eq_some_iff.1 h
  cases h
  exact ((takeExponent_sublist _).trans (takeFraction_sublist more)).trans (takeWhole_sublist whole)

theorem readNumber_sublist {rule : NumberRule} {cs rest : List Char} {v : Value}
    (h : readNumber rule cs = some (v, rest)) : rest.Sublist cs := by
  have token : ∀ {negative : Bool} {cs : List Char},
      ((takeNumber negative cs).bind fun p => (rule p.1).bind fun w => some (w, p.2))
        = some (v, rest) → rest.Sublist cs := by
    intro negative cs h
    obtain ⟨p, taken, h⟩ := Option.bind_eq_some_iff.1 h
    obtain ⟨w, -, h⟩ := Option.bind_eq_some_iff.1 h
    cases h
    exact takeNumber_sublist taken
  unfold readNumber at h
  split at h
  · cases h
    exact List.sublist_append_right "NaN".toList rest
  · cases h
    exact List.sublist_append_right "Infinity".toList rest
  · cases h
    exact List.sublist_append_right "-Infinity".toList rest
  · exact (token h).trans (List.sublist_cons_self _ _)
  · exact token h

theorem within_readNumber (rule : NumberRule) (depth : Nat) (cs : List Char) :
    Within depth cs (orMalformed (readNumber rule cs)) := by
  cases h : readNumber rule cs with
  | none => exact .malformed
  | some p => exact .ok (opens_le_of_sublist (readNumber_sublist h))

/-- With this much fuel the three readers, which call each other, stay within the text. -/
structure StaysWithin (rule : NumberRule) (fuel : Nat) : Prop where
  value : ∀ depth cs, Within depth cs (readValue rule fuel depth cs)
  items : ∀ depth cs, Within depth cs (readItems rule fuel depth cs)
  members : ∀ depth cs, Within depth cs (readMembers rule fuel depth cs)

namespace StaysWithin

variable {rule : NumberRule} {fuel : Nat}

theorem value_succ (h : StaysWithin rule fuel) (depth : Nat) (cs : List Char) :
    Within depth cs (readValue rule (fuel + 1) depth cs) := by
  unfold readValue
  split
  · next rest =>
    have text := (within_readString depth rest).of_sublist (List.sublist_cons_self '"' rest)
    exact text.map fun name => Value.str (String.ofList name)
  · next rest =>
    split
    · exact .error fun _ _ => List.countP_pos_iff.2 ⟨_, List.mem_cons_self, rfl⟩
    · refine Within.nested ?_ rfl
      split
      · next closed => exact .ok (opens_le_of_skipBlanks closed)
      · exact ((h.items _ _).mono (opens_skipBlanks_le rest)).map _
  · next rest =>
    split
    · exact .error fun _ _ => List.countP_pos_iff.2 ⟨_, List.mem_cons_self, rfl⟩
    · refine Within.nested ?_ rfl
      split
      · next closed => exact .ok (opens_le_of_skipBlanks closed)
      · exact ((h.members _ _).mono (opens_skipBlanks_le rest)).map fun es =>
          Value.dict (Entries.collapse es)
  · next rest => exact .ok (opens_le_of_sublist (List.sublist_append_right "null".toList rest))
  · next rest => exact .ok (opens_le_of_sublist (List.sublist_append_right "true".toList rest))
  · next rest => exact .ok (opens_le_of_sublist (List.sublist_append_right "false".toList rest))
  · exact within_readNumber rule depth cs

theorem items_succ (h : StaysWithin rule fuel) (depth : Nat) (cs : List Char) :
    Within depth cs (readItems rule (fuel + 1) depth cs) := by
  rw [readItems]
  refine (h.value depth cs).bind fun v rest le => ?_
  dsimp only
  split
  · next more comma =>
    have left := Nat.le_trans (opens_le_of_skipBlanks comma) le
    exact ((h.items depth _).mono (Nat.le_trans (opens_skipBlanks_le more) left)).map _
  · next closed => exact .ok (Nat.le_trans (opens_le_of_skipBlanks closed) le)
  · exact .malformed

theorem members_succ (h : StaysWithin rule fuel) (depth : Nat) (cs : List Char) :
    Within depth cs (readMembers rule (fuel + 1) depth cs) := by
  unfold readMembers
  split
  · next cs =>
    refine Within.of_sublist ?_ (List.sublist_cons_self '"' cs)
    refine (within_readString depth cs).bind fun name rest le => ?_
    dsimp only
    split
    · next more colon =>
      have left := Nat.le_trans (opens_le_of_skipBlanks colon) le
      have value := h.value depth (skipBlanks more)
      refine (value.mono (Nat.le_trans (opens_skipBlanks_le more) left)).bind fun v rest le => ?_
      dsimp only
      split
      · next more comma =>
        have left := Nat.le_trans (opens_le_of_skipBlanks comma) le
        exact ((h.members depth _).mono (Nat.le_trans (opens_skipBlanks_le more) left)).map _
      · next closed => exact .ok (Nat.le_trans (opens_le_of_skipBlanks closed) le)
      · exact .malformed
    · exact .malformed
  · exact .malformed

end StaysWithin

theorem staysWithin (rule : NumberRule) (fuel : Nat) : StaysWithin rule fuel := by
  induction fuel with
  | zero => exact ⟨fun _ _ => .malformed, fun _ _ => .malformed, fun _ _ => .malformed⟩
  | succ fuel ih => exact ⟨ih.value_succ, ih.items_succ, ih.members_succ⟩

theorem lt_opens_of_readChars {rule : NumberRule} {depth : Nat} {cs : List Char} {isObject : Bool}
    (h : readChars rule depth cs = .error (.halted (.tooDeep isObject))) : depth < opens cs := by
  have within := ((staysWithin rule (2 * cs.length + 1)).value depth (skipBlanks cs)).mono
    (opens_skipBlanks_le cs)
  unfold readChars at h
  generalize readValue rule (2 * cs.length + 1) depth (skipBlanks cs) = r at h within
  cases within with
  | ok =>
    rw [ok_bind] at h
    dsimp only at h
    split at h <;> cases h
  | error deep => exact deep isObject (Except.error.inj h)

theorem lt_opens_of_readBytes {rule : NumberRule} {depth : Nat} {bytes : Bytes} {isObject : Bool}
    (h : readBytes rule depth bytes = .error (.halted (.tooDeep isObject))) :
    ∃ cs, (detect bytes).1.decode (detect bytes).2 = .ok cs ∧ depth < opens cs := by
  unfold readBytes at h
  dsimp only at h
  cases decoded : (detect bytes).1.decode (detect bytes).2 with
  | ok cs =>
    rw [decoded] at h
    exact ⟨cs, rfl, lt_opens_of_readChars h⟩
  | error e =>
    rw [decoded] at h
    cases e <;> cases h

theorem readValue_brackets (rule : NumberRule) {fuel depth n : Nat} (deep : depth < n)
    (enough : 2 * depth < fuel) :
    readValue rule fuel depth (List.replicate n '[') = .error (.halted (.tooDeep false)) := by
  induction depth generalizing fuel n with
  | zero =>
    obtain ⟨fuel, rfl⟩ := Nat.exists_eq_add_of_le' enough
    obtain ⟨n, rfl⟩ := Nat.exists_eq_add_of_le' deep
    rfl
  | succ depth ih =>
    obtain ⟨fuel, rfl⟩ : ∃ f, fuel = f + 2 := ⟨fuel - 2, by omega⟩
    obtain ⟨n, rfl⟩ : ∃ m, n = m + 2 := ⟨n - 2, by omega⟩
    have inner : readValue rule fuel depth (List.replicate (n + 1) '[')
        = .error (.halted (.tooDeep false)) := ih (by omega) (by omega)
    rw [List.replicate_succ] at inner
    have skip : skipBlanks ('[' :: List.replicate n '[') = '[' :: List.replicate n '[' := rfl
    rw [List.replicate_succ, List.replicate_succ, readValue]
    simp only [skip]
    split
    · next same => cases (List.cons.inj same).1
    · rw [readItems, inner, error_bind, map_error]

theorem readChars_brackets (rule : NumberRule) {depth n : Nat} (deep : depth < n) :
    readChars rule depth (List.replicate n '[') = .error (.halted (.tooDeep false)) := by
  obtain ⟨n, rfl⟩ := Nat.exists_eq_add_of_le' deep
  have skip : skipBlanks (List.replicate (n + (depth + 1)) '[')
      = List.replicate (n + (depth + 1)) '[' := rfl
  rw [readChars, skip, readValue_brackets rule (by omega) (by rw [List.length_replicate]; omega)]
  rfl

theorem detect_brackets (e : Encoding) {n : Nat} (some : 1 < n) :
    detect (e.encode (List.replicate n '[')) = (e, e.encode (List.replicate n '[')) := by
  obtain ⟨n, rfl⟩ : ∃ m, n = m + 2 := ⟨n - 2, by omega⟩
  exact detect_bare (by decide) (by decide) e _

theorem readBytes_brackets (rule : NumberRule) (e : Encoding) {depth n : Nat}
    (deep : depth + 1 < n) :
    readBytes rule depth (e.encode (List.replicate n '['))
      = .error (.halted (.tooDeep false)) := by
  have detected := detect_brackets e (show 1 < n by omega)
  simp only [readBytes, detected, Encoding.decode_encode, mapError_ok]
  exact readChars_brackets rule (Nat.lt_of_succ_lt deep)

/-- At whatever depth: the brackets are never closed. -/
theorem readValue_brackets_ne_ok (rule : NumberRule) (fuel depth n : Nat)
    (p : Value × List Char) : readValue rule fuel depth (List.replicate n '[') ≠ .ok p := by
  induction n generalizing fuel depth p with
  | zero => cases fuel <;> exact nofun
  | succ n ih =>
    intro read
    rw [List.replicate_succ] at read
    cases fuel with
    | zero => cases read
    | succ fuel =>
      cases depth with
      | zero => cases read
      | succ depth =>
        have skip : skipBlanks (List.replicate n '[') = List.replicate n '[' := by cases n <;> rfl
        simp only [readValue, skip] at read
        split at read
        · next closed =>
          exact absurd (List.eq_of_mem_replicate (closed ▸ List.mem_cons_self)) (by decide)
        · obtain ⟨items, inner, -⟩ := exists_of_map_eq_ok read
          cases fuel with
          | zero => cases inner
          | succ fuel =>
            rw [readItems] at inner
            obtain ⟨first, within, -⟩ := exists_of_bind_eq_ok inner
            exact ih fuel depth first within

theorem readBytes_brackets_ne_ok (rule : NumberRule) (e : Encoding) (depth : Nat) {n : Nat}
    (some : 1 < n) (v : Value) :
    readBytes rule depth (e.encode (List.replicate n '[')) ≠ .ok v := by
  intro read
  have detected := detect_brackets e some
  simp only [readBytes, detected, Encoding.decode_encode, mapError_ok] at read
  obtain ⟨p, first, -⟩ := exists_of_bind_eq_ok (show readChars rule depth _ = .ok v from read)
  obtain ⟨n, rfl⟩ := Nat.exists_eq_add_of_le' (Nat.lt_of_succ_lt some)
  exact readValue_brackets_ne_ok rule _ depth (n + 1) p first

end PushDispatch.Json
