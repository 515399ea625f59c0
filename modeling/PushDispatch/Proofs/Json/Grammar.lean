import PushDispatch.Json.Writer
import PushDispatch.Proofs.Text.Encoding

/-! The texts of a JSON value, stated as a grammar: each character of a string plain or as an
escape, blanks between the tokens wherever the standard allows them, members in the order of the
entries. Doubles have no text here. -/
namespace PushDispatch

namespace Value

def isFreshName (k : Key) (others : Entries) : Bool :=
  k.text?.any fun name => !Entries.hasField others name

mutual

/-- Null, booleans, integers of at most `Numeral.maxDigits` digits, texts, lists, and mappings whose
keys are texts, each there once. -/
def isPlain : Value → Bool
  | .null | .bool _ | .str _ => true
  | .int n => Numeral.isWritable n
  | .list items => arePlain items
  | .dict entries => entriesPlain entries
  | .float _ | .tuple _ | .proxy .. | .thunk _ | .message .. | .envelope .. => false

def arePlain : List Value → Bool
  | [] => true
  | v :: vs => isPlain v && arePlain vs

def entriesPlain : List (Key × Value) → Bool
  | [] => true
  | (k, v) :: rest => isFreshName k rest && isPlain v && entriesPlain rest

end

theorem isFreshName_iff {k : Key} {others : Entries} :
    isFreshName k others ↔ ∃ name, k = .str name ∧ Entries.field? others name = none := by
  cases k <;> simp [isFreshName, Key.text?, Entries.hasField]

theorem field?_ofFields_eq_none {fields : List (String × Value)} {name : String}
    (absent : name ∉ fields.map (·.1)) :
    Entries.field? (Entries.ofFields fields) name = none := by
  induction fields with
  | nil => rfl
  | cons field rest ih =>
    rw [List.map_cons, List.mem_cons, not_or] at absent
    have other : ¬ (Key.str field.1).same (.str name) := by simp [Key.same, Ne.symm absent.1]
    exact (if_neg other).trans (ih absent.2)

theorem isPlain_ofFields {fields : List (String × Value)} (names : (fields.map (·.1)).Nodup)
    (values : ∀ field ∈ fields, field.2.isPlain) : (ofFields fields).isPlain := by
  rw [ofFields, isPlain]
  induction fields with
  | nil => rfl
  | cons field rest ih =>
    obtain ⟨fresh, others⟩ := List.nodup_cons.1 names
    obtain ⟨plain, later⟩ := List.forall_mem_cons.1 values
    have free : isFreshName (.str field.1) (Entries.ofFields rest) :=
      isFreshName_iff.2 ⟨field.1, rfl, field?_ofFields_eq_none fresh⟩
    show entriesPlain ((.str field.1, field.2) :: Entries.ofFields rest)
    rw [entriesPlain, free, plain, ih others later]
    rfl

end Value

namespace Json

def IsBlanks (cs : List Char) : Prop := ∀ c ∈ cs, c ∈ [' ', '\t', '\n', '\r']

theorem isBlanks_nil : IsBlanks [] := by simp [IsBlanks]

def IsHexDigit (n : Nat) (c : Char) : Prop := n < 16 ∧ (c = n.digitChar ∨ c = n.digitChar.toUpper)

instance (n : Nat) (c : Char) : Decidable (IsHexDigit n c) := inferInstanceAs (Decidable (_ ∧ _))

inductive WritesUnit (n : Nat) : List Char → Prop where
  | intro {a b c d : Char} (ha : IsHexDigit (n / 16 / 16 / 16) a)
      (hb : IsHexDigit (n / 16 / 16 % 16) b) (hc : IsHexDigit (n / 16 % 16) c)
      (hd : IsHexDigit (n % 16) d) : WritesUnit n ['\\', 'u', a, b, c, d]

def shortEscapes : List (Char × Char) :=
  [('"', '"'), ('\\', '\\'), ('/', '/'), ('b', '\x08'), ('f', '\x0c'), ('n', '\n'), ('r', '\r'),
    ('t', '\t')]

inductive WritesChar (c : Char) : List Char → Prop where
  | plain (visible : 32 ≤ c.toNat) (unquoted : c ≠ '"') (unescaped : c ≠ '\\') : WritesChar c [c]
  | short {letter : Char} (h : (letter, c) ∈ shortEscapes) : WritesChar c ['\\', letter]
  | unit {cs : List Char} (range : c.toNat < 0x10000) (h : WritesUnit c.toNat cs) : WritesChar c cs
  | pair {high low : List Char} (range : 0x10000 ≤ c.toNat)
      (hh : WritesUnit (Encoding.highSurrogate c.toNat) high)
      (hl : WritesUnit (Encoding.lowSurrogate c.toNat) low) : WritesChar c (high ++ low)

inductive WritesChars : List Char → List Char → Prop where
  | nil : WritesChars [] []
  | cons {c : Char} {s head cs : List Char} (hc : WritesChar c head) (hs : WritesChars s cs) :
      WritesChars (c :: s) (head ++ cs)

inductive WritesString (s : String) : List Char → Prop where
  | intro {cs : List Char} (h : WritesChars s.toList cs) : WritesString s ('"' :: cs ++ ['"'])

mutual

/-- The texts of a value, without the blanks around them. -/
inductive Writes : Value → List Char → Prop where
  | null : Writes .null "null".toList
  | bool (b : Bool) : Writes (.bool b) (boolText b)
  | int (n : Int) : Writes (.int n) (Numeral.chars n)
  | negativeZero : Writes (.int 0) ['-', '0']
  | str {s : String} {cs : List Char} (h : WritesString s cs) : Writes (.str s) cs
  | emptyList {blanks : List Char} (hb : IsBlanks blanks) :
      Writes (.list []) ('[' :: blanks ++ [']'])
  | list {items : List Value} {cs : List Char} (h : WritesItems items cs) :
      Writes (.list items) ('[' :: cs ++ [']'])
  | emptyDict {blanks : List Char} (hb : IsBlanks blanks) :
      Writes (.dict []) ('\x7b' :: blanks ++ ['\x7d'])
  | dict {entries : List (Key × Value)} {cs : List Char} (h : WritesMembers entries cs) :
      Writes (.dict entries) ('\x7b' :: cs ++ ['\x7d'])

inductive WritesPadded : Value → List Char → Prop where
  | intro {v : Value} {before cs after : List Char} (hb : IsBlanks before) (hv : Writes v cs)
      (ha : IsBlanks after) : WritesPadded v (before ++ cs ++ after)

inductive WritesItems : List Value → List Char → Prop where
  | last {v : Value} {cs : List Char} (h : WritesPadded v cs) : WritesItems [v] cs
  | more {v : Value} {vs : List Value} {cs ds : List Char} (h : WritesPadded v cs)
      (rest : WritesItems vs ds) : WritesItems (v :: vs) (cs ++ ',' :: ds)

inductive WritesMembers : List (Key × Value) → List Char → Prop where
  | last {name : String} {v : Value} {key cs : List Char} (hk : WritesPadded (.str name) key)
      (hv : WritesPadded v cs) : WritesMembers [(.str name, v)] (key ++ ':' :: cs)
  | more {name : String} {v : Value} {entries : List (Key × Value)} {key cs ds : List Char}
      (hk : WritesPadded (.str name) key) (hv : WritesPadded v cs)
      (rest : WritesMembers entries ds) :
      WritesMembers ((.str name, v) :: entries) (key ++ ':' :: cs ++ ',' :: ds)

end

end Json
end PushDispatch
