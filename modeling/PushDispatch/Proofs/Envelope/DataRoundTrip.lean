import PushDispatch.Proofs.Base64
import PushDispatch.Proofs.Envelope.Data
import PushDispatch.Proofs.Json.Detection

/-! Decoding the data of a message undoes every way to encode an object: any of its JSON texts, in
any encoding, in base 64 of either alphabet with or without padding, blanks anywhere in it. -/
namespace PushDispatch

namespace Blank

inductive Spaced : List Char → List Char → Prop where
  | nil : Spaced [] []
  | keep {c : Char} {cs ds : List Char} (h : Spaced cs ds) : Spaced (c :: cs) (c :: ds)
  | blank {c : Char} {cs ds : List Char} (hc : isBlank c) (h : Spaced cs ds) : Spaced cs (c :: ds)

theorem Spaced.refl (cs : List Char) : Spaced cs cs := by
  induction cs with
  | nil => exact .nil
  | cons c cs ih => exact .keep ih

theorem Spaced.append {as bs cs ds : List Char} (first : Spaced as bs) (second : Spaced cs ds) :
    Spaced (as ++ cs) (bs ++ ds) := by
  induction first with
  | nil => exact second
  | keep _ ih => exact .keep ih
  | blank hc _ ih => exact .blank hc ih

theorem Spaced.removeBlanks_eq {cs ds : List Char} (h : Spaced cs ds)
    (visible : ∀ c ∈ cs, isBlank c = false) : removeBlanks ds = cs := by
  induction h with
  | nil => rfl
  | keep _ ih =>
    obtain ⟨first, others⟩ := List.forall_mem_cons.1 visible
    rw [removeBlanks, List.filter_cons_of_pos (by simp [first])]
    exact congrArg _ (ih others)
  | blank hc _ ih =>
    rw [removeBlanks, List.filter_cons_of_neg (by simp [hc])]
    exact ih visible

end Blank

namespace MessageData

/-- The encoded texts of an object. -/
inductive Writes (x : Entries) : String → Prop where
  | intro {e : Encoding} {text code spaced : List Char} {bytes : Bytes}
      (ht : Json.WritesPadded (.dict x) text) (he : e.Encodes text bytes)
      (hc : Base64.Writes bytes code) (hs : Blank.Spaced code spaced) :
      Writes x (String.ofList spaced)

theorem bytes?_spaced {bytes : Bytes} {code spaced : List Char} (hc : Base64.Writes bytes code)
    (hs : Blank.Spaced code spaced) : bytes? spaced = some bytes := by
  rw [bytes?, normalize, hs.removeBlanks_eq fun c hmem => (Base64.plain_of_writes hc c hmem).2.1]
  exact Base64.decode?_writes hc

/-- Every encoded text of an object is decoded to that object, its keys in the order they had. -/
theorem decode_undoes_encode {depth : Nat} {x : Entries} {s : String}
    (plain : (Value.dict x).isPlain)
    (level : (Value.dict x).depth ≤ depth) (written : Writes x s) :
    decode depth (.str s) = .ok x := by
  obtain ⟨ht, he, hc, hs⟩ := written
  have bytes := bytes?_spaced hc hs
  rw [decode, decodeText_eq_ok_iff, String.toList_ofList]
  exact ⟨_, bytes, Json.readBytes_encodes ht plain level he⟩

theorem decode_undoes_encode_spaced_utf16 :
    Writes [(.str "é", .int (-7))] "_/57ACAAIgBcAHUAMAAwAEUAOQAi\n ACAAOgAtADcAfQA" ∧
      decode 100 (.str "_/57ACAAIgBcAHUAMAAwAEUAOQAi\n ACAAOgAtADcAfQA")
        = .ok [(.str "é", .int (-7))] := by
  have blanks : ∀ n, Json.IsBlanks (List.replicate n ' ') := fun n c hc => by
    simp [List.eq_of_mem_replicate hc]
  have letter : Json.WritesChar 'é' "\\u00E9".toList :=
    .unit (by decide) (.intro (by decide) (by decide) (by decide) (by decide))
  have name : Json.WritesPadded (.str "é") " \"\\u00E9\" ".toList :=
    .intro (blanks 1) (.str (.intro (s := "é") (.cons letter .nil))) (blanks 1)
  have text : Json.WritesPadded (.dict [(.str "é", .int (-7))]) "\x7b \"\\u00E9\" :-7\x7d".toList :=
    .intro (blanks 0) (.dict (.last name (.intro (blanks 0) (.int (-7)) (blanks 0)))) (blanks 0)
  have symbols : List.Forall₂ Base64.IsSymbol (Base64.sextets ((Encoding.utf16 false).encode
      (Encoding.byteOrderMark :: "\x7b \"\\u00E9\" :-7\x7d".toList)))
      "_/57ACAAIgBcAHUAMAAwAEUAOQAiACAAOgAtADcAfQA".toList := by decide +kernel
  have spaced : Blank.Spaced "_/57ACAAIgBcAHUAMAAwAEUAOQAiACAAOgAtADcAfQA".toList
      "_/57ACAAIgBcAHUAMAAwAEUAOQAi\n ACAAOgAtADcAfQA".toList :=
    (Blank.Spaced.refl "_/57ACAAIgBcAHUAMAAwAEUAOQAi".toList).append
      (.blank (c := '\n') (by decide) (.blank (c := ' ') (by decide) (.refl _)))
  -- the one sign of padding is left off
  have written := Writes.intro text .marked (.intro symbols (Nat.zero_le _)) spaced
  exact ⟨written, decode_undoes_encode (by decide +kernel) (by decide) written⟩

end MessageData
end PushDispatch
