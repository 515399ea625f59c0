import PushDispatch.Proofs.Base64.Acceptance
import PushDispatch.Proofs.Envelope.DataRoundTrip
import PushDispatch.Proofs.Json.Nesting

/-! The texts that are accepted as data: base 64 of a JSON object, blanks apart and in either
alphabet. All others are refused, and for the same reason, but for those whose JSON cannot be read
to its end. -/
namespace PushDispatch

namespace MessageData

def standardText (s : String) : List Char := (Blank.removeBlanks s.toList).map Base64.toStandard

theorem normalize_eq (s : String) : normalize s.toList = Base64.pad (standardText s) := by
  rw [normalize, standardText, Base64.pad, Base64.pad, List.map_append, List.map_replicate,
    List.length_map]
  rfl

theorem bytes?_eq_some_iff {s : String} {bytes : Bytes} : bytes? s.toList = some bytes ↔
    Base64.Holds (standardText s) bytes ∨ Base64.Exceeds (standardText s) bytes := by
  rw [bytes?, normalize_eq, Base64.decode?_pad_eq_some_iff]

theorem holds_of_not_mem {s : String} (none : '=' ∉ standardText s) {bytes : Bytes}
    (read : bytes? s.toList = some bytes) : Base64.Holds (standardText s) bytes := by
  obtain holds | ⟨text, -, ⟨-, -, some⟩, -⟩ := bytes?_eq_some_iff.1 read
  · exact holds
  · refine absurd ?_ none
    rw [text]
    exact List.mem_append_right _ (List.mem_replicate.2 ⟨some, rfl⟩)

theorem standardText_encodeUrl (bytes : Bytes) :
    standardText (String.ofList (Base64.encodeUrl bytes))
      = (Base64.encodeUrl bytes).map Base64.toStandard := by
  have visible := Base64.plain_of_writes (Base64.writes_encodeUrl bytes)
  rw [standardText, String.toList_ofList, Blank.removeBlanks, List.filter_eq_self.2]
  intro c member
  rw [(visible c member).2.1, Bool.not_false]

theorem holds_encodeUrl (bytes : Bytes) :
    Base64.Holds (standardText (String.ofList (Base64.encodeUrl bytes))) bytes := by
  refine holds_of_not_mem (fun sign => ?_) ?_
  · rw [standardText_encodeUrl] at sign
    obtain ⟨c, member, same⟩ := List.mem_map.1 sign
    obtain ⟨n, symbol⟩ := Base64.exists_isSymbol (Base64.symbols_encodeUrl bytes) c member
    exact Base64.toStandard_ne_sign symbol same
  · rw [String.toList_ofList]
    exact bytes?_spaced (Base64.writes_encodeUrl bytes) (.refl _)

/-- A text is read as bytes exactly when it is base 64 of them, or would be but for signs of padding
that complete nothing. It is decoded to the object that the bytes are the JSON text of, and refused
as invalid when they are none or the text of anything else; that the reading of that text is halted
by the depth takes more opening brackets than that. -/
theorem decode_text_iff (depth : Nat) (s : String) :
    let isRead (bytes : Bytes) :=
      Base64.Holds (standardText s) bytes ∨ Base64.Exceeds (standardText s) bytes
    let content := Json.readBytes Json.boundedNumber depth
    (∀ bytes, bytes? s.toList = some bytes ↔ isRead bytes) ∧
    (∀ bytes, Base64.Exceeds (standardText s) bytes →
      ∀ other, ¬ Base64.Holds (standardText s) other) ∧
    (∀ x, decode depth (.str s) = .ok x ↔ ∃ bytes, isRead bytes ∧ content bytes = .ok (.dict x)) ∧
    ((∃ cause, decode depth (.str s) = .error (.refused cause) ∧ cause.reason = .invalid) ↔
      ∀ bytes, isRead bytes →
        content bytes = .error .malformed ∨ ∃ v, content bytes = .ok v ∧ ∀ x, v ≠ .dict x) ∧
    (∀ cause, decode depth (.str s) = .error (.halted cause) ↔
      ∃ bytes, isRead bytes ∧ content bytes = .error (.halted cause)) ∧
    (∀ isObject, decode depth (.str s) = .error (.halted (.tooDeep isObject)) →
      ∃ bytes cs, isRead bytes ∧ (Json.detect bytes).1.decode (Json.detect bytes).2 = .ok cs ∧
        depth < Json.opens cs) ∧
    ∀ x cs bytes (e : Encoding), isRead bytes → e.Encodes cs bytes →
      Json.WritesPadded (.dict x) cs → (Value.dict x).isPlain → (Value.dict x).depth ≤ depth →
      decode depth (.str s) = .ok x := by
  intro isRead content
  have known : ∀ bytes, bytes? s.toList = some bytes ↔ isRead bytes := fun bytes =>
    bytes?_eq_some_iff
  have halts : ∀ cause, decode depth (.str s) = .error (.halted cause) ↔
      ∃ bytes, isRead bytes ∧ content bytes = .error (.halted cause) := by
    intro cause
    rw [decode, decodeText_eq_halted_iff]
    exact exists_congr fun bytes => and_congr_left' (known bytes)
  have decodes : ∀ x, decode depth (.str s) = .ok x ↔
      ∃ bytes, isRead bytes ∧ content bytes = .ok (.dict x) := by
    intro x
    rw [decode, decodeText_eq_ok_iff]
    exact exists_congr fun bytes => and_congr_left' (known bytes)
  refine ⟨known, fun _ excess _ => excess.not_holds, decodes, ?_, halts, ?_, ?_⟩
  · have refused := exists_decodeText_eq_refused_iff depth s
    simp only [known] at refused
    rw [← refused]
    exact exists_congr fun cause => and_iff_left rfl
  · intro isObject halted
    obtain ⟨bytes, read, deep⟩ := (halts _).1 halted
    obtain ⟨cs, decoded, lt⟩ := Json.lt_opens_of_readBytes deep
    exact ⟨bytes, cs, read, decoded, lt⟩
  · intro x cs bytes e read encoded written plain level
    exact (decodes x).2 ⟨bytes, read, Json.readBytes_encodes written plain level encoded⟩

theorem decode_text_iff_unpadded :
    let s := "eyLCvyI6 MX0"
    let bytes := Encoding.utf8.encode "\x7b\"¿\":1\x7d".toList
    Base64.Holds (standardText s) bytes ∧ decode 100 (.str s) = .ok [(.str "¿", .int 1)] := by
  intro s bytes
  obtain ⟨known, -, -, -, -, -, written⟩ := decode_text_iff 100 s
  have read : bytes? s.toList = some bytes := by decide +kernel
  have blank : Json.IsBlanks [] := Json.isBlanks_nil
  have letter : Json.WritesChar '¿' ['¿'] := .plain (by decide) (by decide) (by decide)
  have name : Json.WritesPadded (.str "¿") "\"¿\"".toList :=
    .intro blank (.str (.intro (s := "¿") (.cons letter .nil))) blank
  have text : Json.WritesPadded (.dict [(.str "¿", .int 1)]) "\x7b\"¿\":1\x7d".toList :=
    .intro blank (.dict (.last name (.intro blank (.int 1) blank))) blank
  exact ⟨holds_of_not_mem (by decide) read,
    written _ _ _ .utf8 ((known bytes).1 read) .bare text (by decide +kernel) (by decide)⟩

/-- The bytes are nothing but opening brackets, so they are no object's text, and the text that
holds them is not refused. -/
theorem decode_halts_on_brackets :
    let bytes := Encoding.utf8.encode (List.replicate 12000 '[')
    let s := String.ofList (Base64.encodeUrl bytes)
    Base64.Holds (standardText s) bytes ∧
      (∀ depth x, Json.readBytes Json.boundedNumber depth bytes ≠ .ok (.dict x)) ∧
      decode 1000 (.str s) = .error (.halted (.tooDeep false)) := by
  intro bytes s
  refine ⟨holds_encodeUrl bytes, fun depth x => ?_, ?_⟩
  · exact Json.readBytes_brackets_ne_ok _ .utf8 depth (by decide) (.dict x)
  · rw [decode, decodeText_eq_halted_iff, String.toList_ofList]
    exact ⟨bytes, bytes?_spaced (Base64.writes_encodeUrl bytes) (.refl _),
      Json.readBytes_brackets _ .utf8 (by decide)⟩

end MessageData
end PushDispatch
