import PushDispatch.Proofs.Json.Reading

/-! The writer follows the grammar, so what it writes is read as the value it wrote. A style that
keeps to ASCII writes nothing but characters that can be seen, and blanks. -/
namespace PushDispatch.Json

theorem writesUnit_escapeUnit {n : Nat} (h : n < 0x10000) : WritesUnit n (escapeUnit n) := by
  have digit : ∀ k < 16, IsHexDigit k (Quoted.hexDigit k) := by decide
  have low : ∀ k, Quoted.hexDigit k = Quoted.hexDigit (k % 16) := fun k => by
    rw [Quoted.hexDigit, Quoted.hexDigit, Nat.mod_mod]
  have bound : ∀ k, k % 16 < 16 := fun k => Nat.mod_lt k (by decide)
  rw [escapeUnit]
  simp only [Quoted.hex, List.nil_append, List.cons_append]
  rw [low (n / 16 / 16), low (n / 16), low n]
  exact .intro (digit _ (by omega)) (digit _ (bound _)) (digit _ (bound _)) (digit _ (bound _))

theorem writesChar_escapeChar (asciiOnly : Bool) (c : Char) :
    WritesChar c (escapeChar asciiOnly c) := by
  have lengths := Encoding.toNat_cases c
  rw [escapeChar]
  split
  · next h => obtain rfl | rfl := h <;> exact .short (by decide)
  split
  · next h => exact .short (by subst h; decide)
  split
  · next h => exact .short (by subst h; decide)
  split
  · next h => exact .short (by subst h; decide)
  split
  · next h => exact .short (by subst h; decide)
  split
  · next h => exact .short (by subst h; decide)
  split
  · exact .unit (by omega) (writesUnit_escapeUnit (by omega))
  next unquoted _ _ _ _ _ visible =>
  split
  · exact .plain (by omega) (fun h => unquoted (.inl h)) (fun h => unquoted (.inr h))
  split
  · next range => exact .unit range (writesUnit_escapeUnit range)
  next beyond =>
  exact .pair (by omega) (writesUnit_escapeUnit (by unfold Encoding.highSurrogate; omega))
    (writesUnit_escapeUnit (by unfold Encoding.lowSurrogate; omega))

theorem writesString_quote (style : Style) (s : String) :
    WritesString s (quote style s.toList) := by
  refine .intro ?_
  induction s.toList with
  | nil => exact .nil
  | cons c cs ih =>
    rw [List.flatMap_cons]
    exact .cons (writesChar_escapeChar _ c) ih

/-- The separators of a style are the standard's, with blanks after them. -/
structure Style.IsStandard (style : Style) : Prop where
  item : ∃ blanks, IsBlanks blanks ∧ style.afterItem = ',' :: blanks
  key : ∃ blanks, IsBlanks blanks ∧ style.afterKey = ':' :: blanks

theorem isStandard_compact : Style.compact.IsStandard :=
  ⟨⟨[], isBlanks_nil, rfl⟩, ⟨[], isBlanks_nil, rfl⟩⟩

theorem isStandard_compactAscii : Style.compactAscii.IsStandard :=
  ⟨⟨[], isBlanks_nil, rfl⟩, ⟨[], isBlanks_nil, rfl⟩⟩

theorem isStandard_spacedAscii : Style.spacedAscii.IsStandard :=
  ⟨⟨[' '], by simp [IsBlanks], rfl⟩, ⟨[' '], by simp [IsBlanks], rfl⟩⟩

theorem WritesPadded.of_writes {v : Value} {before cs : List Char} (hb : IsBlanks before)
    (h : Writes v cs) : WritesPadded v (before ++ cs) := by
  simpa using WritesPadded.intro hb h isBlanks_nil

theorem WritesPadded.bare {v : Value} {cs : List Char} (h : Writes v cs) : WritesPadded v cs :=
  of_writes isBlanks_nil h

theorem WritesPadded.blanks {v : Value} {before cs : List Char} (hb : IsBlanks before)
    (h : WritesPadded v cs) : WritesPadded v (before ++ cs) := by
  obtain ⟨hb', hv, ha⟩ := h
  rw [← List.append_assoc, ← List.append_assoc]
  exact .intro (fun c hc => (List.mem_append.1 hc).elim (hb c) (hb' c)) hv ha

theorem WritesItems.blanks {vs : List Value} {before cs : List Char} (hb : IsBlanks before)
    (h : WritesItems vs cs) : WritesItems vs (before ++ cs) := by
  cases h with
  | last h => exact .last (h.blanks hb)
  | more h rest =>
    rw [← List.append_assoc]
    exact .more (h.blanks hb) rest

theorem WritesMembers.blanks {es : Entries} {before cs : List Char} (hb : IsBlanks before)
    (h : WritesMembers es cs) : WritesMembers es (before ++ cs) := by
  cases h with
  | last hk hv =>
    rw [← List.append_assoc]
    exact .last (hk.blanks hb) hv
  | more hk hv rest =>
    simp only [← List.append_assoc]
    exact .more (hk.blanks hb) hv rest

theorem WritesPadded.of_quote (style : Style) (s : String) :
    WritesPadded (.str s) (quote style s.toList) :=
  .bare (.str (writesString_quote style s))

mutual

theorem writes_write {style : Style} (hs : style.IsStandard) :
    ∀ v : Value, v.isPlain → Writes v (write style v)
  | .null => fun _ => .null
  | .bool b => fun _ => .bool b
  | .int n => fun _ => .int n
  | .str s => fun _ => .str (writesString_quote style s)
  | .list vs => fun h => by
    have items := writesItems_writeItems hs vs h
    cases vs with
    | nil => exact .emptyList isBlanks_nil
    | cons v vs => exact .list (items (List.cons_ne_nil v vs))
  | .dict es => fun h => by
    have members := writesMembers_writeMembers hs es h
    cases es with
    | nil => exact .emptyDict isBlanks_nil
    | cons e es => exact .dict (members (List.cons_ne_nil e es))
  | .float _ | .tuple _ | .proxy .. | .thunk _ | .message .. | .envelope .. => fun h => nomatch h

theorem writesItems_writeItems {style : Style} (hs : style.IsStandard) :
    ∀ vs, Value.arePlain vs → vs ≠ [] → WritesItems vs (writeItems style vs)
  | [] => fun _ none => absurd rfl none
  | [v] => fun h _ => by
    simp only [Value.arePlain, Bool.and_true] at h
    exact .last (.bare (writes_write hs v h))
  | v :: w :: ws => fun h _ => by
    rw [Value.arePlain, Bool.and_eq_true] at h
    obtain ⟨blanks, hb, comma⟩ := hs.item
    have first := WritesPadded.bare (writes_write hs v h.1)
    have others := (writesItems_writeItems hs (w :: ws) h.2 (List.cons_ne_nil w ws)).blanks hb
    simpa [writeItems, comma] using WritesItems.more first others

theorem writesMembers_writeMembers {style : Style} (hs : style.IsStandard) :
    ∀ es, Value.entriesPlain es → es ≠ [] → WritesMembers es (writeMembers style es)
  | [] => fun _ none => absurd rfl none
  | [(k, v)] => fun h _ => by
    simp only [Value.entriesPlain, Bool.and_eq_true, Value.isFreshName_iff] at h
    obtain ⟨⟨⟨name, rfl, -⟩, plain⟩, -⟩ := h
    obtain ⟨blanks, hb, colon⟩ := hs.key
    have value := WritesPadded.of_writes hb (writes_write hs v plain)
    simpa [writeMembers, keyText, colon] using WritesMembers.last (.of_quote style name) value
  | (k, v) :: e :: es => fun h _ => by
    rw [Value.entriesPlain, Bool.and_eq_true, Bool.and_eq_true, Value.isFreshName_iff] at h
    obtain ⟨⟨⟨name, rfl, -⟩, plain⟩, rest⟩ := h
    obtain ⟨blanks, hb, colon⟩ := hs.key
    obtain ⟨blanks', hb', comma⟩ := hs.item
    have value := WritesPadded.of_writes hb (writes_write hs v plain)
    have others :=
      (writesMembers_writeMembers hs (e :: es) rest (List.cons_ne_nil e es)).blanks hb'
    simpa [writeMembers, keyText, colon, comma] using
      WritesMembers.more (.of_quote style name) value others

end

theorem readChars_write {style : Style} (hs : style.IsStandard) {depth : Nat} {v : Value}
    (plain : v.isPlain) (level : v.depth ≤ depth) :
    readChars boundedNumber depth (write style v) = .ok v :=
  readChars_writesPadded (.bare (writes_write hs v plain)) plain level

/-- Nothing but the characters of ASCII that can be seen, and blanks. No line ends in such a text.
-/
def IsPrintable (cs : List Char) : Prop := ∀ c ∈ cs, 32 ≤ c.toNat ∧ c.toNat < 127

instance (cs : List Char) : Decidable (IsPrintable cs) := List.decidableBAll _ cs

@[simp] theorem isPrintable_append {as bs : List Char} :
    IsPrintable (as ++ bs) ↔ IsPrintable as ∧ IsPrintable bs := List.forall_mem_append

@[simp] theorem isPrintable_cons {c : Char} {cs : List Char} :
    IsPrintable (c :: cs) ↔ (32 ≤ c.toNat ∧ c.toNat < 127) ∧ IsPrintable cs :=
  List.forall_mem_cons

@[simp] theorem isPrintable_nil : IsPrintable [] := List.forall_mem_nil _

private theorem isPrintable_between {first last : Char} {cs : List Char}
    (opening : IsPrintable [first])
    (inner : IsPrintable cs) (closing : IsPrintable [last]) :
    IsPrintable (first :: cs ++ [last]) :=
  isPrintable_append.2 ⟨isPrintable_append.2 ⟨opening, inner⟩, closing⟩

private theorem isPrintable_hex (count n : Nat) : IsPrintable (Quoted.hex count n) := by
  have digit : ∀ k < 16, IsPrintable [k.digitChar] := by decide
  induction count generalizing n with
  | zero => exact nofun
  | succ count ih =>
    rw [Quoted.hex, isPrintable_append]
    exact ⟨ih (n / 16), digit (n % 16) (Nat.mod_lt n (by decide))⟩

theorem isPrintable_escapeUnit (n : Nat) : IsPrintable (escapeUnit n) := by
  rw [escapeUnit, isPrintable_cons, isPrintable_cons]
  exact ⟨by decide, by decide, isPrintable_hex 4 n⟩

private theorem isPrintable_ite {p : Prop} [Decidable p] {as bs : List Char}
    (holds : p → IsPrintable as) (fails : ¬ p → IsPrintable bs) :
    IsPrintable (if p then as else bs) := by
  by_cases h : p
  · rw [if_pos h]
    exact holds h
  · rw [if_neg h]
    exact fails h

theorem isPrintable_escapeChar (c : Char) : IsPrintable (escapeChar true c) := by
  rw [escapeChar]
  refine isPrintable_ite (by rintro (rfl | rfl) <;> decide) fun _ => ?_
  refine isPrintable_ite (fun _ => by decide) fun _ => ?_
  refine isPrintable_ite (fun _ => by decide) fun _ => ?_
  refine isPrintable_ite (fun _ => by decide) fun _ => ?_
  refine isPrintable_ite (fun _ => by decide) fun _ => ?_
  refine isPrintable_ite (fun _ => by decide) fun _ => ?_
  refine isPrintable_ite (fun _ => isPrintable_escapeUnit _) fun seen => ?_
  refine isPrintable_ite (fun h => ?_) fun _ => ?_
  · rw [isPrintable_cons]
    exact ⟨⟨Nat.not_lt.1 seen, h.resolve_left (by decide)⟩, nofun⟩
  refine isPrintable_ite (fun _ => isPrintable_escapeUnit _) fun _ => ?_
  exact isPrintable_append.2 ⟨isPrintable_escapeUnit _, isPrintable_escapeUnit _⟩

private theorem isPrintable_null : IsPrintable "null".toList := by decide

private theorem isPrintable_boolText (b : Bool) : IsPrintable (boolText b) := by cases b <;> decide

private theorem isPrintable_chars (n : Int) : IsPrintable (Numeral.chars n) := by
  have digits : IsPrintable (Nat.toDigits 10 n.natAbs) := by
    intro c hc
    have digit : c.isDigit := Nat.isDigit_of_mem_toDigits (by decide) (by decide) hc
    simp only [Char.isDigit, Bool.and_eq_true, decide_eq_true_eq] at digit
    have range : 48 ≤ c.toNat ∧ c.toNat ≤ 57 := digit
    omega
  rw [Numeral.chars]
  split
  · exact isPrintable_cons.2 ⟨by decide, digits⟩
  · exact digits

structure Style.IsAscii (style : Style) : Prop where
  only : style.asciiOnly = true
  item : IsPrintable style.afterItem
  key : IsPrintable style.afterKey

theorem isAscii_spacedAscii : Style.spacedAscii.IsAscii := ⟨rfl, by decide, by decide⟩

theorem isPrintable_quote {style : Style} (hs : style.IsAscii) (cs : List Char) :
    IsPrintable (quote style cs) := by
  have inner : IsPrintable (cs.flatMap (escapeChar style.asciiOnly)) := by
    intro d hd
    obtain ⟨c, -, written⟩ := List.mem_flatMap.1 hd
    rw [hs.only] at written
    exact isPrintable_escapeChar c d written
  exact isPrintable_between (by decide) inner (by decide)

mutual

theorem isPrintable_write {style : Style} (hs : style.IsAscii) :
    ∀ v : Value, v.isPlain → IsPrintable (write style v)
  | .null => fun _ => isPrintable_null
  | .bool b => fun _ => isPrintable_boolText b
  | .int n => fun _ => isPrintable_chars n
  | .str s => fun _ => isPrintable_quote hs s.toList
  | .list vs => fun h =>
    isPrintable_between (by decide) (isPrintable_writeItems hs vs h) (by decide)
  | .dict es => fun h =>
    isPrintable_between (by decide) (isPrintable_writeMembers hs es h) (by decide)
  | .float _ | .tuple _ | .proxy .. | .thunk _ | .message .. | .envelope .. => fun h => nomatch h

theorem isPrintable_writeItems {style : Style} (hs : style.IsAscii) :
    ∀ vs, Value.arePlain vs → IsPrintable (writeItems style vs)
  | [] => fun _ => nofun
  | [v] => fun h => by
    simp only [Value.arePlain, Bool.and_true] at h
    exact isPrintable_write hs v h
  | v :: w :: ws => fun h => by
    rw [Value.arePlain, Bool.and_eq_true] at h
    simp only [writeItems, isPrintable_append]
    exact ⟨⟨isPrintable_write hs v h.1, hs.item⟩, isPrintable_writeItems hs (w :: ws) h.2⟩

theorem isPrintable_writeMembers {style : Style} (hs : style.IsAscii) :
    ∀ es, Value.entriesPlain es → IsPrintable (writeMembers style es)
  | [] => fun _ => nofun
  | [(k, v)] => fun h => by
    simp only [Value.entriesPlain, Bool.and_eq_true] at h
    rw [writeMembers, isPrintable_append, isPrintable_append]
    exact ⟨⟨isPrintable_quote hs _, hs.key⟩, isPrintable_write hs v h.1.2⟩
  | (k, v) :: e :: es => fun h => by
    rw [Value.entriesPlain, Bool.and_eq_true, Bool.and_eq_true] at h
    simp only [writeMembers, isPrintable_append]
    exact ⟨⟨⟨⟨isPrintable_quote hs _, hs.key⟩, isPrintable_write hs v h.1.2⟩, hs.item⟩,
      isPrintable_writeMembers hs (e :: es) h.2⟩

end

end PushDispatch.Json
