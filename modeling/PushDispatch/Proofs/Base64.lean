import PushDispatch.Base64
import PushDispatch.Proofs.Text.Encoding
import PushDispatch.Text.Blank
import Mathlib.Data.List.Forall2

/-! The base 64 of bytes: every way to write it, and what both readings make of it. -/
namespace PushDispatch.Base64

/-- The bytes in groups of six bits, the last group filled up with zeros. -/
def sextets : Bytes → List Nat
  | [] => []
  | [a] => [a.toNat / 4, a.toNat % 4 * 16]
  | [a, b] => [a.toNat / 4, a.toNat % 4 * 16 + b.toNat / 16, b.toNat % 16 * 4]
  | a :: b :: c :: rest =>
    a.toNat / 4 :: (a.toNat % 4 * 16 + b.toNat / 16) :: (b.toNat % 16 * 4 + c.toNat / 64)
      :: c.toNat % 64 :: sextets rest

def alphabet : List Char :=
  "ABCDEFGHIJKLMNOPQRSTUVWXYZabcdefghijklmnopqrstuvwxyz0123456789+/".toList

def urlAlphabet : List Char :=
  "ABCDEFGHIJKLMNOPQRSTUVWXYZabcdefghijklmnopqrstuvwxyz0123456789-_".toList

def IsSymbol (n : Nat) (c : Char) : Prop := alphabet[n]? = some c ∨ urlAlphabet[n]? = some c

instance (n : Nat) (c : Char) : Decidable (IsSymbol n c) := inferInstanceAs (Decidable (_ ∨ _))

def signs (bytes : Bytes) : Nat := (3 - bytes.length % 3) % 3

/-- A text of bytes: each symbol of either alphabet, and all signs of padding or fewer. -/
inductive Writes (bytes : Bytes) : List Char → Prop where
  | intro {symbols : List Char} {k : Nat} (hs : List.Forall₂ IsSymbol (sextets bytes) symbols)
      (hk : k ≤ signs bytes) : Writes bytes (symbols ++ List.replicate k '=')

@[simp] theorem bytesOf_sextets (bytes : Bytes) : bytesOf (sextets bytes) = bytes := by
  have byte : ∀ {n : Nat} {a : UInt8}, n % 256 = a.toNat → UInt8.ofNat n = a := fun h =>
    UInt8.toNat_inj.1 ((UInt8.toNat_ofNat' ..).trans h)
  fun_induction sextets bytes with
  | case1 => rfl
  | case2 a =>
    have ha := a.toNat_lt
    rw [bytesOf, one, byte (a := a)]
    omega
  | case3 a b =>
    have ha := a.toNat_lt
    have hb := b.toNat_lt
    rw [bytesOf, one, two, byte (a := a), byte (a := b)] <;> omega
  | case4 a b c rest ih =>
    have ha := a.toNat_lt
    have hb := b.toNat_lt
    have hc := c.toNat_lt
    rw [bytesOf, one, two, three, byte (a := a), byte (a := b), byte (a := c), ih] <;> omega

@[simp] theorem length_sextets (bytes : Bytes) :
    (sextets bytes).length + signs bytes = (bytes.length + 2) / 3 * 4 := by
  fun_induction sextets bytes with
  | case1 => rfl
  | case2 => simp [signs]
  | case3 => simp [signs]
  | case4 a b c rest ih =>
    simp only [List.length_cons, signs] at ih ⊢
    omega

private theorem mem_zipIdx_of_isSymbol {n : Nat} {c : Char} (h : IsSymbol n c) :
    (c, n) ∈ alphabet.zipIdx ++ urlAlphabet.zipIdx :=
  List.mem_append.2 (h.imp List.mk_mem_zipIdx_iff_getElem?.2 List.mk_mem_zipIdx_iff_getElem?.2)

theorem sextet?_of_isSymbol {n : Nat} {c : Char} (h : IsSymbol n c) :
    sextet? (toStandard c) = some n := by
  have table : ∀ p ∈ alphabet.zipIdx ++ urlAlphabet.zipIdx,
      sextet? (toStandard p.1) = some p.2 := by
    decide +kernel
  exact table _ (mem_zipIdx_of_isSymbol h)

theorem plain_of_isSymbol {n : Nat} {c : Char} (h : IsSymbol n c) :
    c.toNat < 0x80 ∧ Blank.isBlank c = false ∧ c ≠ '.' := by
  have table : ∀ p ∈ alphabet.zipIdx ++ urlAlphabet.zipIdx,
      p.1.toNat < 0x80 ∧ Blank.isBlank p.1 = false ∧ p.1 ≠ '.' := by decide +kernel
  exact table _ (mem_zipIdx_of_isSymbol h)

private theorem mapM_sextet? {ns : List Nat} {symbols : List Char}
    (h : List.Forall₂ IsSymbol ns symbols) :
    (symbols.map toStandard).mapM sextet? = some ns := by
  induction h with
  | nil => rfl
  | cons hc _ ih => simp [sextet?_of_isSymbol hc, ih]

theorem exists_isSymbol {ns : List Nat} {symbols : List Char}
    (h : List.Forall₂ IsSymbol ns symbols) : ∀ c ∈ symbols, ∃ n, IsSymbol n c := by
  induction h with
  | nil => simp
  | cons hc _ ih => exact List.forall_mem_cons.2 ⟨⟨_, hc⟩, ih⟩

theorem toStandard_ne_sign {n : Nat} {c : Char} (h : IsSymbol n c) : toStandard c ≠ '=' := by
  intro sign
  have value := sextet?_of_isSymbol h
  rw [sign] at value
  cases value

theorem signs_lt (bytes : Bytes) : signs bytes < 3 := Nat.mod_lt _ (by decide)

theorem paddingFits_signs (bytes : Bytes) : paddingFits (sextets bytes).length (signs bytes) := by
  have remainder : (sextets bytes).length % 4 = 0 ∧ signs bytes = 0 ∨
      (sextets bytes).length % 4 = 2 ∧ signs bytes = 2 ∨
      (sextets bytes).length % 4 = 3 ∧ signs bytes = 1 := by
    have whole := length_sextets bytes
    have few := signs_lt bytes
    omega
  obtain ⟨left, padding⟩ | ⟨left, padding⟩ | ⟨left, padding⟩ := remainder <;>
    simp [paddingFits, left, padding]

theorem pad_writes {bytes : Bytes} {symbols : List Char} {k : Nat}
    (hs : List.Forall₂ IsSymbol (sextets bytes) symbols) (hk : k ≤ signs bytes) :
    pad (symbols ++ List.replicate k '=') = symbols ++ List.replicate (signs bytes) '=' := by
  have whole := length_sextets bytes
  have few := signs_lt bytes
  have missing : k + (4 - (symbols ++ List.replicate k '=').length % 4) % 4 = signs bytes := by
    rw [List.length_append, List.length_replicate, ← hs.length_eq]
    omega
  rw [pad, List.append_assoc, List.replicate_append_replicate, missing]

theorem takeWhile_signs {symbols : List Char} (h : ∀ c ∈ symbols, c ≠ '=') (signs : Nat) :
    (symbols ++ List.replicate signs '=').takeWhile (· ≠ '=') = symbols := by
  rw [List.takeWhile_append_of_pos (by simpa using h), List.takeWhile_replicate]
  simp

theorem dropWhile_signs {symbols : List Char} (h : ∀ c ∈ symbols, c ≠ '=') (signs : Nat) :
    (symbols ++ List.replicate signs '=').dropWhile (· ≠ '=') = List.replicate signs '=' := by
  rw [List.dropWhile_append_of_pos (by simpa using h), List.dropWhile_replicate]
  simp

theorem decode?_symbols {bytes : Bytes} {symbols : List Char}
    (hs : List.Forall₂ IsSymbol (sextets bytes) symbols) :
    decode? (symbols.map toStandard ++ List.replicate (signs bytes) '=') = some bytes := by
  have plain : ∀ c ∈ symbols.map toStandard, c ≠ '=' := by
    intro c hc
    obtain ⟨d, hd, rfl⟩ := List.mem_map.1 hc
    obtain ⟨n, hn⟩ := exists_isSymbol hs d hd
    exact toStandard_ne_sign hn
  have fits := paddingFits_signs bytes
  rw [hs.length_eq] at fits
  rw [decode?, takeWhile_signs plain, dropWhile_signs plain]
  simp [fits, mapM_sextet? hs, bytesOf_sextets]

theorem decode?_writes {bytes : Bytes} {cs : List Char} (h : Writes bytes cs) :
    decode? ((pad cs).map toStandard) = some bytes := by
  obtain ⟨hs, hk⟩ := h
  rw [pad_writes hs hk, List.map_append, List.map_replicate]
  exact decode?_symbols hs

theorem plain_of_writes {bytes : Bytes} {cs : List Char} (h : Writes bytes cs) :
    ∀ c ∈ cs, c.toNat < 0x80 ∧ Blank.isBlank c = false ∧ c ≠ '.' := by
  obtain ⟨hs, hk⟩ := h
  intro c hc
  obtain symbol | sign := List.mem_append.1 hc
  · obtain ⟨n, hn⟩ := exists_isSymbol hs c symbol
    exact plain_of_isSymbol hn
  · rw [List.eq_of_mem_replicate sign]
    decide

private theorem octets_ascii {cs : List Char} (h : ∀ c ∈ cs, c.toNat < 0x80) : octets cs = cs := by
  induction cs with
  | nil => rfl
  | cons c cs ih =>
    obtain ⟨small, others⟩ := List.forall_mem_cons.1 h
    have rest := ih others
    rw [octets, Encoding.encodeUtf8] at rest ⊢
    rw [List.flatMap_cons, Encoding.utf8OfChar, if_pos small, List.map_append, rest,
      List.map_singleton, Encoding.toNat_ofNat (by omega), Char.ofNat_toNat, List.singleton_append]

theorem not_sign_of_sextet? {n : Nat} {c : Char} (h : sextet? c = some n) : c ≠ '=' := by
  rintro rfl
  cases h

private theorem lenient_groups {ns : List Nat} {cs : List Char}
    (h : List.Forall₂ (fun n c => sextet? c = some n) ns cs) {k : Nat} (few : k < 3)
    (complete : (ns.length + k) % 4 = 0) :
    decodeLenientFrom [] 0 (cs ++ List.replicate k '=') = some (bytesOf ns) := by
  -- the equations of the reader, by how many sextets are held when a symbol comes
  have first : ∀ {n c} (_ : sextet? c = some n) (rest : List Char),
      decodeLenientFrom [] 0 (c :: rest) = decodeLenientFrom [n] 0 rest := fun h rest =>
    decodeLenientFrom.eq_7 0 _ rest [] _ (not_sign_of_sextet? h) h (by simp) (by simp) (by simp)
  have second : ∀ {m n c} (_ : sextet? c = some n) (rest : List Char),
      decodeLenientFrom [m] 0 (c :: rest)
        = (decodeLenientFrom [m, n] 0 rest).map (one m n :: ·) := fun h rest =>
    decodeLenientFrom.eq_6 0 _ rest _ _ (not_sign_of_sextet? h) h
  have third : ∀ {l m n c} (_ : sextet? c = some n) (rest : List Char),
      decodeLenientFrom [l, m] 0 (c :: rest)
        = (decodeLenientFrom [l, m, n] 0 rest).map (two m n :: ·) := fun h rest =>
    decodeLenientFrom.eq_5 0 _ rest _ _ _ (not_sign_of_sextet? h) h
  have fourth : ∀ {k l m n c} (_ : sextet? c = some n) (rest : List Char),
      decodeLenientFrom [k, l, m] 0 (c :: rest)
        = (decodeLenientFrom [] 0 rest).map (three m n :: ·) := fun h rest =>
    decodeLenientFrom.eq_4 0 _ rest _ _ _ _ (not_sign_of_sextet? h) h
  fun_induction bytesOf ns generalizing cs with
  | case1 a b c d rest ih =>
    obtain _ | ⟨ha, _ | ⟨hb, _ | ⟨hc, _ | ⟨hd, h⟩⟩⟩⟩ := h
    have others := ih h (by simp only [List.length_cons] at complete; omega)
    simp only [List.cons_append, first ha, second hb, third hc, fourth hd, others, Option.map_some]
  | case2 a b c =>
    obtain _ | ⟨ha, _ | ⟨hb, _ | ⟨hc, ⟨⟩⟩⟩⟩ := h
    obtain rfl : k = 1 := by simp only [List.length_cons, List.length_nil] at complete; omega
    simp only [List.cons_append, List.nil_append, first ha, second hb, third hc]
    rfl
  | case3 a b =>
    obtain _ | ⟨ha, _ | ⟨hb, ⟨⟩⟩⟩ := h
    obtain rfl : k = 2 := by simp only [List.length_cons, List.length_nil] at complete; omega
    simp only [List.cons_append, List.nil_append, first ha, second hb]
    rfl
  | case4 ns four three two =>
    match ns, h with
    | [], .nil =>
      obtain rfl : k = 0 := by simp only [List.length_nil] at complete; omega
      rfl
    | [a], _ =>
      simp only [List.length_cons, List.length_nil] at complete
      omega
    | [a, b], _ => exact absurd rfl (two a b)
    | [a, b, c], _ => exact absurd rfl (three a b c)
    | a :: b :: c :: d :: rest, _ => exact absurd rfl (four a b c d rest)

theorem decodeLenient?_writes {bytes : Bytes} {cs : List Char} (h : Writes bytes cs) :
    decodeLenient? cs = some bytes := by
  have ascii := octets_ascii fun c hc => (plain_of_writes h c hc).1
  obtain ⟨hs, hk⟩ := h
  have whole := length_sextets bytes
  have standard : List.Forall₂ (fun n c => sextet? c = some n) (sextets bytes)
      (List.map toStandard _) :=
    List.forall₂_map_right_iff.2 (hs.imp fun _ _ => sextet?_of_isSymbol)
  have read := lenient_groups standard (signs_lt bytes) (by omega)
  rw [decodeLenient?, ascii, pad_writes hs hk, List.map_append, List.map_replicate]
  exact read.trans (congrArg _ (bytesOf_sextets bytes))

theorem isSymbol_urlChar {n : Nat} (h : n < 64) : IsSymbol n (urlChar n) := by
  have table : ∀ n < 64, urlAlphabet[n]? = some (urlChar n) := by decide +kernel
  exact .inr (table n h)

theorem encodeUrl_eq_map (bytes : Bytes) : encodeUrl bytes = (sextets bytes).map urlChar := by
  fun_induction sextets bytes with
  | case1 | case2 | case3 => rfl
  | case4 a b c rest ih => simp [encodeUrl, ih]

theorem sextets_lt (bytes : Bytes) : ∀ n ∈ sextets bytes, n < 64 := by
  fun_induction sextets bytes with
  | case1 => simp
  | case2 a =>
    have ha := a.toNat_lt
    simp
    omega
  | case3 a b =>
    have ha := a.toNat_lt
    have hb := b.toNat_lt
    simp
    omega
  | case4 a b c rest ih =>
    have ha := a.toNat_lt
    have hb := b.toNat_lt
    have hc := c.toNat_lt
    simp only [List.forall_mem_cons]
    exact ⟨by omega, by omega, by omega, by omega, ih⟩

theorem symbols_encodeUrl (bytes : Bytes) :
    List.Forall₂ IsSymbol (sextets bytes) (encodeUrl bytes) := by
  rw [encodeUrl_eq_map, List.forall₂_map_right_iff, List.forall₂_same]
  exact fun n hn => isSymbol_urlChar (sextets_lt bytes n hn)

theorem writes_encodeUrl (bytes : Bytes) : Writes bytes (encodeUrl bytes) := by
  simpa using Writes.intro (symbols_encodeUrl bytes) (Nat.zero_le _)

end PushDispatch.Base64
