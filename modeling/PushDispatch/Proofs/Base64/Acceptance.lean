import Mathlib.Data.List.Forall2
import PushDispatch.Proofs.Base64

/-! Which texts are base 64, and of which bytes. A text is accepted exactly when it is symbols and
then padding that goes with their number. Its bytes are the bits of the symbols, six of each, as far
as they fill whole bytes. -/
namespace PushDispatch.Base64

/-- The lowest bits of a number, the greatest of them first. -/
def bitsOf : Nat → Nat → List Bool
  | 0, _ => []
  | width + 1, n => n.testBit width :: bitsOf width n

def bits (width : Nat) (ns : List Nat) : List Bool := ns.flatMap (bitsOf width)

@[simp] theorem length_bitsOf (width n : Nat) : (bitsOf width n).length = width := by
  induction width with
  | zero => rfl
  | succ width ih => rw [bitsOf, List.length_cons, ih]

@[simp] theorem bits_append (width : Nat) (ms ns : List Nat) :
    bits width (ms ++ ns) = bits width ms ++ bits width ns := List.flatMap_append

theorem bitsOf_congr {width m n : Nat} (same : ∀ i < width, m.testBit i = n.testBit i) :
    bitsOf width m = bitsOf width n := by
  induction width with
  | zero => rfl
  | succ width ih =>
    rw [bitsOf, bitsOf, same width (Nat.lt_succ_self width),
      ih fun i lower => same i (Nat.lt_succ_of_lt lower)]

private theorem testBit_of_bitsOf_eq {width m n : Nat} (same : bitsOf width m = bitsOf width n) :
    ∀ i < width, m.testBit i = n.testBit i := by
  induction width with
  | zero => nofun
  | succ width ih =>
    obtain ⟨first, others⟩ := List.cons.inj same
    intro i lower
    obtain rfl | lower := Nat.eq_or_lt_of_le (Nat.le_of_lt_succ lower)
    · exact first
    · exact ih others i lower

theorem bitsOf_add (upper lower n : Nat) :
    bitsOf (upper + lower) n = bitsOf upper (n >>> lower) ++ bitsOf lower n := by
  induction upper with
  | zero => rw [Nat.zero_add, bitsOf, List.nil_append]
  | succ upper ih =>
    rw [Nat.succ_add, bitsOf, bitsOf, ih, Nat.testBit_shiftRight, List.cons_append,
      Nat.add_comm lower upper]

private theorem bitsOf_joined (upper lower a : Nat) {b : Nat} (small : b < Nat.pow 2 lower) :
    bitsOf (upper + lower) (Nat.pow 2 lower * a + b) = bitsOf upper a ++ bitsOf lower b := by
  have joined := Nat.testBit_two_pow_mul_add a small
  rw [bitsOf_add]
  congr 1
  · apply bitsOf_congr
    intro i _
    rw [Nat.testBit_shiftRight]
    refine (joined (lower + i)).trans ?_
    rw [if_neg (by omega), Nat.add_sub_cancel_left]
  · apply bitsOf_congr
    intro i within
    exact (joined i).trans (if_pos within)

private theorem bitsOf_byte (n : Nat) : bitsOf 8 (UInt8.ofNat n).toNat = bitsOf 8 n := by
  apply bitsOf_congr
  intro i within
  have low := Nat.testBit_mod_two_pow n 8 i
  rw [decide_eq_true within, Bool.true_and] at low
  rw [UInt8.toNat_ofNat']
  exact low

private theorem bitsOf_one (a : Nat) {b : Nat} (hb : b < 64) :
    bitsOf 8 (one a b).toNat = bitsOf 6 a ++ bitsOf 2 (b >>> 4) := by
  have high : b >>> 4 = b / 16 := Nat.shiftRight_eq_div_pow b 4
  rw [one, bitsOf_byte, high, Nat.mul_comm]
  exact bitsOf_joined 6 2 a (show b / 16 < 4 by omega)

private theorem bitsOf_two (b : Nat) {c : Nat} (hc : c < 64) :
    bitsOf 8 (two b c).toNat = bitsOf 4 b ++ bitsOf 4 (c >>> 2) := by
  have high : c >>> 2 = c / 4 := Nat.shiftRight_eq_div_pow c 2
  rw [two, bitsOf_byte, high, Nat.mul_comm]
  exact bitsOf_joined 4 4 b (show c / 4 < 16 by omega)

private theorem bitsOf_three (c : Nat) {d : Nat} (hd : d < 64) :
    bitsOf 8 (three c d).toNat = bitsOf 2 c ++ bitsOf 6 d := by
  rw [three, bitsOf_byte, Nat.mul_comm]
  exact bitsOf_joined 2 6 c (show d < 64 from hd)

private theorem bitsOf_second (b : Nat) : bitsOf 6 b = bitsOf 2 (b >>> 4) ++ bitsOf 4 b :=
  bitsOf_add 2 4 b

private theorem bitsOf_third (c : Nat) : bitsOf 6 c = bitsOf 4 (c >>> 2) ++ bitsOf 2 c :=
  bitsOf_add 4 2 c

theorem bits_group (a : Nat) {b c d : Nat} (hb : b < 64) (hc : c < 64) (hd : d < 64) :
    bits 8 [(one a b).toNat, (two b c).toNat, (three c d).toNat] = bits 6 [a, b, c, d] := by
  simp only [bits, List.flatMap_cons, List.flatMap_nil, List.append_nil, bitsOf_one a hb,
    bitsOf_two b hc, bitsOf_three c hd, bitsOf_second b, bitsOf_third c, List.append_assoc]

theorem length_bytesOf : ∀ ns : List Nat, (bytesOf ns).length = 6 * ns.length / 8
  | [] | [_] | [_, _] | [_, _, _] => by simp [bytesOf]
  | a :: b :: c :: d :: rest => by
    have others := length_bytesOf rest
    simp only [bytesOf, List.length_cons, others]
    omega

/-- The bytes have the bits of the sextets up to the last whole byte. -/
theorem bits_bytesOf : ∀ {ns : List Nat}, (∀ n ∈ ns, n < 64) →
    bits 8 ((bytesOf ns).map UInt8.toNat) = (bits 6 ns).take (8 * (bytesOf ns).length)
  | [], _ | [_], _ => by simp [bytesOf, bits]
  | [a, b], small => by
    have hb := small b (by simp)
    simp only [bytesOf, bits, List.map_cons, List.map_nil, List.flatMap_cons, List.flatMap_nil,
      List.append_nil, bitsOf_one a hb, bitsOf_second b, ← List.append_assoc]
    exact (List.take_left' (by simp)).symm
  | [a, b, c], small => by
    have hb := small b (by simp)
    have hc := small c (by simp)
    simp only [bytesOf, bits, List.map_cons, List.map_nil, List.flatMap_cons, List.flatMap_nil,
      List.append_nil, bitsOf_one a hb, bitsOf_two b hc, bitsOf_second b, bitsOf_third c,
      ← List.append_assoc]
    exact (List.take_left' (by simp)).symm
  | a :: b :: c :: d :: rest, small => by
    simp only [List.forall_mem_cons] at small
    obtain ⟨-, hb, hc, hd, others⟩ := small
    have whole : (bits 6 [a, b, c, d]).length = 24 := rfl
    calc bits 8 ((bytesOf (a :: b :: c :: d :: rest)).map UInt8.toNat)
        = bits 8 ([(one a b).toNat, (two b c).toNat, (three c d).toNat]
            ++ (bytesOf rest).map UInt8.toNat) := rfl
      _ = bits 6 [a, b, c, d] ++ (bits 6 rest).take (8 * (bytesOf rest).length) := by
        rw [bits_append, bits_group a hb hc hd, bits_bytesOf others]
      _ = (bits 6 [a, b, c, d] ++ bits 6 rest).take (24 + 8 * (bytesOf rest).length) := by
        rw [← whole, List.take_length_add_append]
      _ = (bits 6 (a :: b :: c :: d :: rest)).take
            (8 * (bytesOf (a :: b :: c :: d :: rest)).length) := by
        rw [← bits_append, bytesOf]
        congr 1
        simp only [List.length_cons]
        omega

theorem eq_of_bits_eq {xs ys : Bytes}
    (same : bits 8 (xs.map UInt8.toNat) = bits 8 (ys.map UInt8.toNat)) : xs = ys := by
  induction xs generalizing ys with
  | nil =>
    cases ys with
    | nil => rfl
    | cons y ys => cases same
  | cons x xs ih =>
    cases ys with
    | nil => cases same
    | cons y ys =>
      simp only [bits, List.map_cons, List.flatMap_cons] at same ih
      obtain ⟨first, others⟩ := List.append_inj same (by simp only [length_bitsOf])
      have bit := testBit_of_bitsOf_eq first
      have equal : x.toNat = y.toNat := by
        apply Nat.eq_of_testBit_eq
        intro i
        by_cases within : i < 8
        · exact bit i within
        · have beyond : ∀ z : UInt8, z.toNat.testBit i = false := fun z =>
            Nat.testBit_lt_two_pow (Nat.lt_of_lt_of_le z.toNat_lt
              (Nat.pow_le_pow_right (by decide) (by omega)))
          rw [beyond x, beyond y]
      rw [UInt8.toNat_inj.1 equal, ih others]

/-- Bytes that are filled by groups of six bits; the bits left over at the end are ignored. -/
def IsFilledBy (bytes : Bytes) (ns : List Nat) : Prop :=
  bits 8 (bytes.map UInt8.toNat) = (bits 6 ns).take (8 * (6 * ns.length / 8))

theorem isFilledBy_iff {bytes : Bytes} {ns : List Nat} (small : ∀ n ∈ ns, n < 64) :
    IsFilledBy bytes ns ↔ bytes = bytesOf ns := by
  rw [IsFilledBy, ← length_bytesOf, ← bits_bytesOf small]
  constructor
  · exact eq_of_bits_eq
  · rintro rfl
    rfl

def IsStandard (n : Nat) (c : Char) : Prop := alphabet[n]? = some c

private theorem ascii_of_sextet? {n : Nat} {c : Char} (h : sextet? c = some n) : c.toNat < 128 := by
  have bound : ∀ {d : Char}, c ≤ d → c.toNat ≤ d.toNat := fun le => UInt32.le_iff_toNat_le.1 le
  unfold sextet? at h
  split at h
  · next range => exact Nat.lt_of_le_of_lt (bound range.2) (by decide)
  split at h
  · next range => exact Nat.lt_of_le_of_lt (bound range.2) (by decide)
  split at h
  · next range => exact Nat.lt_of_le_of_lt (bound range.2) (by decide)
  split at h
  · next plus =>
    rw [plus]
    decide
  split at h
  · next slash =>
    rw [slash]
    decide
  · cases h

theorem sextet?_eq_some_iff {n : Nat} {c : Char} : sextet? c = some n ↔ IsStandard n c := by
  constructor
  · intro h
    have table : ∀ code < 128, ∀ n ∈ sextet? (Char.ofNat code),
        alphabet[n]? = some (Char.ofNat code) := by
      decide +kernel
    have place := table c.toNat (ascii_of_sextet? h) n
    rw [Char.ofNat_toNat] at place
    exact place h
  · intro standard
    have table : ∀ p ∈ alphabet.zipIdx, sextet? p.1 = some p.2 := by decide +kernel
    exact table (c, n) (List.mk_mem_zipIdx_iff_getElem?.2 standard)

theorem mapM_sextet?_eq_some_iff {symbols : List Char} {ns : List Nat} :
    symbols.mapM sextet? = some ns ↔ List.Forall₂ IsStandard ns symbols := by
  induction symbols generalizing ns with
  | nil =>
    cases ns with
    | nil => exact iff_of_true rfl .nil
    | cons n ns => exact iff_of_false nofun nofun
  | cons c symbols ih =>
    rw [List.mapM_cons]
    constructor
    · intro h
      obtain ⟨n, first, h⟩ := Option.bind_eq_some_iff.1 h
      obtain ⟨others, rest, h⟩ := Option.bind_eq_some_iff.1 h
      cases h
      exact .cons (sextet?_eq_some_iff.1 first) (ih.1 rest)
    · intro h
      cases h with
      | cons first rest => simp [sextet?_eq_some_iff.2 first, ih.2 rest]

theorem IsStandard.ne_sign {n : Nat} {c : Char} (h : IsStandard n c) : c ≠ '=' :=
  not_sign_of_sextet? (sextet?_eq_some_iff.2 h)

theorem IsStandard.lt {n : Nat} {c : Char} (h : IsStandard n c) : n < 64 :=
  (List.getElem?_eq_some_iff.1 h).1

variable {ns : List Nat} {symbols : List Char}

theorem ne_sign_of_standard (h : List.Forall₂ IsStandard ns symbols) : ∀ c ∈ symbols, c ≠ '=' := by
  induction h with
  | nil => nofun
  | cons first _ ih => exact List.forall_mem_cons.2 ⟨first.ne_sign, ih⟩

theorem lt_of_standard (h : List.Forall₂ IsStandard ns symbols) : ∀ n ∈ ns, n < 64 := by
  induction h with
  | nil => nofun
  | cons first _ ih => exact List.forall_mem_cons.2 ⟨first.lt, ih⟩

theorem decode?_eq_some_iff {cs : List Char} {bytes : Bytes} :
    decode? cs = some bytes ↔ ∃ symbols ns signs, cs = symbols ++ List.replicate signs '=' ∧
      List.Forall₂ IsStandard ns symbols ∧ paddingFits symbols.length signs ∧
      bytes = bytesOf ns := by
  constructor
  · intro read
    unfold decode? at read
    dsimp only at read
    split at read
    · next fits =>
      rw [Bool.and_eq_true, List.all_eq_true] at fits
      obtain ⟨ns, values, rfl⟩ := Option.map_eq_some_iff.1 read
      have signs : cs.dropWhile (· ≠ '=')
          = List.replicate (cs.dropWhile (· ≠ '=')).length '=' :=
        List.eq_replicate_iff.2 ⟨rfl, fun c hc => eq_of_beq (fits.1 c hc)⟩
      refine ⟨_, ns, _, ?_, mapM_sextet?_eq_some_iff.1 values, fits.2, rfl⟩
      rw [← signs, List.takeWhile_append_dropWhile]
    · cases read
  · rintro ⟨symbols, ns, signs, rfl, standard, fits, rfl⟩
    have plain := ne_sign_of_standard standard
    rw [decode?, takeWhile_signs plain, dropWhile_signs plain]
    simp [fits, mapM_sextet?_eq_some_iff.2 standard]

/-- How many signs of padding may end a text of so many symbols: none after complete groups, and
else those that complete the last group, or fewer. -/
inductive Padding (symbols : Nat) : Nat → Prop where
  | complete (groups : symbols % 4 = 0) : Padding symbols 0
  | afterTwo {signs : Nat} (begun : symbols % 4 = 2) (few : signs ≤ 2) : Padding symbols signs
  | afterThree {signs : Nat} (begun : symbols % 4 = 3) (few : signs ≤ 1) : Padding symbols signs

def IsExcess (symbols signs : Nat) : Prop := symbols % 4 = 0 ∧ symbols ≠ 0 ∧ signs ≠ 0

def missing (symbols signs : Nat) : Nat := (4 - (symbols + signs) % 4) % 4

theorem paddingFits_missing (symbols signs : Nat) :
    paddingFits symbols (signs + missing symbols signs) ↔
      Padding symbols signs ∨ IsExcess symbols signs := by
  unfold missing
  constructor
  · intro fits
    unfold paddingFits at fits
    split at fits
    · next groups =>
      cases signs with
      | zero => exact .inl (.complete groups)
      | succ signs =>
        refine .inr ⟨groups, ?_, Nat.succ_ne_zero signs⟩
        rintro rfl
        simp at fits
    · next begun => exact .inl (.afterTwo begun (by simp at fits; omega))
    · next begun => exact .inl (.afterThree begun (by simp at fits; omega))
    · cases fits
  · rintro (padding | ⟨groups, some, -⟩)
    · cases padding with
      | complete groups => simp [paddingFits, groups]
      | afterTwo begun few =>
        simp only [paddingFits, begun, beq_iff_eq]
        omega
      | afterThree begun few =>
        simp only [paddingFits, begun, beq_iff_eq]
        omega
    · simp [paddingFits, groups, some]

theorem pad_eq (t : List Char) : pad t = t ++ List.replicate (missing t.length 0) '=' := rfl

theorem pad_eq_iff {t : List Char} {signs : Nat} (plain : ∀ c ∈ symbols, c ≠ '=') :
    pad t = symbols ++ List.replicate signs '=' ↔
      ∃ given, t = symbols ++ List.replicate given '=' ∧
        signs = given + missing symbols.length given := by
  rw [pad_eq]
  constructor
  · intro padded
    obtain ⟨more, rfl, rest⟩ | ⟨more, rfl, rest⟩ := List.append_eq_append_iff.1 padded
    · -- no sign is a symbol, so the symbols are all of the text
      obtain ⟨-, signs, -⟩ := List.replicate_eq_append_iff.1 rest
      have none : more = [] := by
        cases more with
        | nil => rfl
        | cons c more =>
          obtain rfl : c = '=' := (List.cons.inj signs).1
          exact absurd rfl (plain '=' (by simp))
      subst none
      refine ⟨0, by simp, ?_⟩
      have lengths := congrArg List.length rest
      simp only [List.length_replicate, List.nil_append] at lengths
      rw [List.append_nil, ← lengths, Nat.zero_add]
    · obtain ⟨lengths, signs, -⟩ := List.replicate_eq_append_iff.1 rest
      refine ⟨more.length, by rw [← signs], ?_⟩
      rw [← lengths, List.length_replicate, List.length_append]
      rfl
  · rintro ⟨given, rfl, rfl⟩
    rw [List.append_assoc, List.replicate_append_replicate, List.length_append,
      List.length_replicate]
    rfl

/-- A text of the standard alphabet, with all of its padding or less, and the bytes it holds. -/
inductive Holds (t : List Char) (bytes : Bytes) : Prop where
  | intro {symbols : List Char} {ns : List Nat} {signs : Nat}
      (text : t = symbols ++ List.replicate signs '=')
      (standard : List.Forall₂ IsStandard ns symbols) (padding : Padding symbols.length signs)
      (filled : IsFilledBy bytes ns)

/-- The one other form that is read: complete groups of symbols with signs of padding after them. -/
inductive Exceeds (t : List Char) (bytes : Bytes) : Prop where
  | intro {symbols : List Char} {ns : List Nat} {signs : Nat}
      (text : t = symbols ++ List.replicate signs '=')
      (standard : List.Forall₂ IsStandard ns symbols) (excess : IsExcess symbols.length signs)
      (filled : IsFilledBy bytes ns)

theorem eq_of_append_signs {symbols' : List Char} {k k' : Nat} (plain : ∀ c ∈ symbols, c ≠ '=')
    (plain' : ∀ c ∈ symbols', c ≠ '=')
    (same : symbols ++ List.replicate k '=' = symbols' ++ List.replicate k' '=') :
    symbols = symbols' ∧ k = k' := by
  obtain rfl : symbols = symbols' := by
    rw [← takeWhile_signs plain k, same, takeWhile_signs plain' k']
  have signs := congrArg List.length (List.append_cancel_left same)
  rw [List.length_replicate, List.length_replicate] at signs
  exact ⟨rfl, signs⟩

theorem Exceeds.not_holds {t : List Char} {bytes other : Bytes} (h : Exceeds t bytes) :
    ¬ Holds t other := by
  obtain ⟨text, standard, ⟨groups, -, some⟩, -⟩ := h
  rintro ⟨text', standard', padding, -⟩
  obtain ⟨rfl, rfl⟩ := eq_of_append_signs (ne_sign_of_standard standard)
    (ne_sign_of_standard standard') (text.symm.trans text')
  cases padding with
  | complete => exact some rfl
  | afterTwo begun | afterThree begun => cases groups.symm.trans begun

theorem decode?_pad_eq_some_iff {t : List Char} {bytes : Bytes} :
    decode? (pad t) = some bytes ↔ Holds t bytes ∨ Exceeds t bytes := by
  rw [decode?_eq_some_iff]
  constructor
  · rintro ⟨symbols, ns, signs, padded, standard, fits, rfl⟩
    obtain ⟨given, text, rfl⟩ := (pad_eq_iff (ne_sign_of_standard standard)).1 padded
    have filled := (isFilledBy_iff (lt_of_standard standard)).2 rfl
    obtain padding | excess := (paddingFits_missing _ _).1 fits
    · exact .inl (.intro text standard padding filled)
    · exact .inr (.intro text standard excess filled)
  · rintro (⟨text, standard, padding, filled⟩ | ⟨text, standard, excess, filled⟩)
    · exact ⟨_, _, _, (pad_eq_iff (ne_sign_of_standard standard)).2 ⟨_, text, rfl⟩, standard,
        (paddingFits_missing _ _).2 (.inl padding),
        (isFilledBy_iff (lt_of_standard standard)).1 filled⟩
    · exact ⟨_, _, _, (pad_eq_iff (ne_sign_of_standard standard)).2 ⟨_, text, rfl⟩, standard,
        (paddingFits_missing _ _).2 (.inr excess),
        (isFilledBy_iff (lt_of_standard standard)).1 filled⟩

end PushDispatch.Base64
