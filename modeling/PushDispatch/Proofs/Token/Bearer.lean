import PushDispatch.Token.Bearer
import Mathlib.Control.Basic
import Mathlib.Data.List.TakeWhile
import Mathlib.Data.Option.Basic

/-! The token of an authorization header by the parts of the header: a scheme, the blank that ends
it, and credentials. -/
namespace PushDispatch

namespace Blank

private theorem trimLeft_append {before cs : List Char} (hb : ∀ c ∈ before, isBlank c)
    (hc : ∀ c ∈ cs.head?, isBlank c = false) : trimLeft (before ++ cs) = cs := by
  rw [trimLeft, List.dropWhile_append_of_pos hb]
  cases cs with
  | nil => rfl
  | cons c cs => exact List.dropWhile_cons_of_neg (by simp [hc c rfl])

theorem trim_append {before cs after : List Char} (hb : ∀ c ∈ before, isBlank c)
    (hc : ∀ c ∈ cs, isBlank c = false) (ha : ∀ c ∈ after, isBlank c) (some : cs ≠ []) :
    trim (before ++ cs ++ after) = cs := by
  obtain ⟨first, more, rfl⟩ := List.exists_cons_of_ne_nil some
  have front : trimLeft (before ++ (first :: more ++ after)) = first :: more ++ after :=
    trimLeft_append hb (by simpa using hc first List.mem_cons_self)
  have back : trimLeft (after.reverse ++ (first :: more).reverse) = (first :: more).reverse := by
    refine trimLeft_append (by simpa using ha) fun c hmem => hc c ?_
    exact List.mem_reverse.1 (List.mem_of_mem_head? hmem)
  rw [trim, List.append_assoc, front, trimRight, List.reverse_append, ← trimLeft, back,
    List.reverse_reverse]

theorem trim_eq_nil_iff {cs : List Char} : trim cs = [] ↔ ∀ c ∈ cs, isBlank c := by
  have left : ∀ ds : List Char, trimLeft ds = [] ↔ ∀ c ∈ ds, isBlank c := fun _ =>
    List.dropWhile_eq_nil_iff
  rw [trim, trimRight, ← trimLeft, List.reverse_eq_nil_iff, left, ← left cs]
  constructor
  · intro trailing
    -- what is left begins with a character that is no blank, unless nothing is left
    by_contra remains
    have visible := List.head_dropWhile_not isBlank remains
    have blank := trailing _ (List.mem_reverse.2 (List.head_mem remains))
    exact Bool.false_ne_true (visible.symm.trans blank)
  · intro none
    simp [none]

end Blank

namespace Token

def scheme (header : String) : List Char := header.toList.takeWhile (· ≠ ' ')

def credentials (header : String) : List Char := (header.toList.dropWhile (· ≠ ' ')).drop 1

def IsBearerWord (word : List Char) : Prop := word.map Char.toLower = "bearer".toList

instance (word : List Char) : Decidable (IsBearerWord word) := inferInstanceAs (Decidable (_ = _))

private theorem atFirst_header (header : String) :
    Split.atFirst ' ' header.toList =
      if ' ' ∈ header.toList then some (scheme header, credentials header) else none := by
  rw [scheme, credentials]
  induction header.toList with
  | nil => rfl
  | cons c cs ih =>
    rw [Split.atFirst]
    split
    · next blank => simp [blank]
    · next other =>
      rw [ih]
      split <;> simp_all [Ne.symm other]

theorem lowerAscii_eq_iff (word : List Char) :
    LetterCase.lowerAscii (String.ofList word) = "bearer" ↔ IsBearerWord word := by
  rw [LetterCase.lowerAscii, String.toList_ofList, IsBearerWord, ← String.toList_inj,
    String.toList_ofList]

/-- The token is what the credentials hold beside blanks, if the scheme is right. -/
theorem ofHeader?_some (header : String) :
    ofHeader? (some header) =
      if IsBearerWord (scheme header) ∧ Blank.trim (credentials header) ≠ [] then
        some (String.ofList (Blank.trim (credentials header))) else none := by
  rw [ofHeader?, Option.bind_eq_bind, Option.bind_some, atFirst_header]
  split
  · have lower := lowerAscii_eq_iff (scheme header)
    by_cases word : IsBearerWord (scheme header)
    · cases trimmed : Blank.trim (credentials header) <;> simp [lower.2 word, word, trimmed]
    · simp [lower, word]
  · next unbroken =>
    have empty : credentials header = [] := by
      have all : header.toList.dropWhile (· ≠ ' ') = [] := by
        rw [List.dropWhile_eq_nil_iff]
        rintro c hc
        rw [decide_eq_true_eq]
        rintro rfl
        exact unbroken hc
      rw [credentials, all, List.drop_nil]
    simp [empty, Blank.trim_eq_nil_iff]

end Token
end PushDispatch
