import PushDispatch.Proofs.Base64
import PushDispatch.Proofs.Except
import PushDispatch.Proofs.Json.Writing
import PushDispatch.Token.Verify

/-! What the issuer of a token writes, the checker reads back: three parts with points between them,
base 64 in each, and in the first two an object as JSON. -/
namespace PushDispatch

theorem Split.atLast_append {sep : Char} (a : List Char) {b : List Char} (h : sep ∉ b) :
    atLast sep (a ++ sep :: b) = some (a, b) := by
  have reversed : (a ++ sep :: b).reverse = b.reverse ++ sep :: a.reverse := by simp
  rw [atLast, reversed, atFirst_append a.reverse (mt List.mem_reverse.1 h), Option.map_some,
    List.reverse_reverse, List.reverse_reverse]

namespace Token

private theorem point_notMem_encodeUrl (bytes : Bytes) : '.' ∉ Base64.encodeUrl bytes :=
    fun point =>
  (Base64.plain_of_writes (Base64.writes_encodeUrl bytes) '.' point).2.2 rfl

/-- What the signature of a token covers: its header and its claims, here as the bytes of texts. -/
def covered (header body : Bytes) : List Char :=
  Base64.encodeUrl header ++ '.' :: Base64.encodeUrl body

def compact (key header body : Bytes) : List Char :=
  covered header body ++ '.' :: Base64.encodeUrl (signature key (covered header body))

theorem ofToken?_compact (key header body : Bytes) :
    Parts.ofToken? (compact key header body) =
      some ⟨covered header body, Base64.encodeUrl header, Base64.encodeUrl body,
        Base64.encodeUrl (signature key (covered header body))⟩ := by
  rw [Parts.ofToken?, compact, Split.atLast_append _ (point_notMem_encodeUrl _),
    Option.bind_eq_bind, Option.bind_some]
  simp only [covered]
  rw [Split.atFirst_append _ (point_notMem_encodeUrl _)]
  rfl

@[simp] theorem decodeLenient?_encodeUrl (bytes : Bytes) :
    Base64.decodeLenient? (Base64.encodeUrl bytes) = some bytes :=
  Base64.decodeLenient?_writes (Base64.writes_encodeUrl bytes)

theorem readObject_write {depth : Nat} {es : Entries} (plain : (Value.dict es).isPlain)
    (level : (Value.dict es).depth ≤ depth) :
    readObject depth (Encoding.encodeUtf8 (Json.write Json.Style.compactAscii (.dict es)))
      = .ok es := by
  simp [readObject, Encoding.decodeUtf8_encodeUtf8,
    Json.readChars_write Json.isStandard_compactAscii plain level]

theorem not_blank_of_compact (key header body : Bytes) :
    ∀ c ∈ compact key header body, Blank.isBlank c = false := by
  have part : ∀ bytes, ∀ c ∈ Base64.encodeUrl bytes, Blank.isBlank c = false := fun bytes c hc =>
    (Base64.plain_of_writes (Base64.writes_encodeUrl bytes) c hc).2.1
  intro c hc
  simp only [compact, covered, List.mem_append, List.mem_cons] at hc
  obtain (first | rfl | second) | rfl | third := hc
  · exact part _ c first
  · rfl
  · exact part _ c second
  · rfl
  · exact part _ c third

theorem not_blank_of_encode (key : Bytes) (header claims : Value) :
    ∀ c ∈ encode key header claims, Blank.isBlank c = false := not_blank_of_compact key _ _

theorem isSignedByAny_of_split {key : Bytes} {candidate : Value} (before after : List Value)
    (keys : ∀ other ∈ before, ∃ k, Secret.key other = .ok k) (own : Secret.key candidate = .ok key)
    (message : List Char) :
    isSignedByAny message (signature key message) (before ++ candidate :: after) = .ok true := by
  induction before with
  | nil =>
    rw [List.nil_append, isSignedByAny, own, ok_bind, if_pos rfl]
    rfl
  | cons other before ih =>
    obtain ⟨⟨k, read⟩, later⟩ := List.forall_mem_cons.1 keys
    rw [List.cons_append, isSignedByAny, read, ok_bind]
    split
    · rfl
    · exact ih later

/-- A token over claims that can be read is accepted if one of the secret's keys signs like the
issuer, and the claims hold now. -/
theorem accept_compact {depth : Nat} {secret : String} {keys : List Value} {header body : Bytes}
    {fields claims : Entries} (key : Bytes) (candidates : Secret.candidates depth secret = .ok keys)
    (headed : readObject depth header = .ok fields)
    (named : Entries.field? fields "alg" = some (.str algorithm))
    (stated : readObject depth body = .ok claims) (now : ClockReading) :
    accept depth (compact key header body) secret now = do
      let signed := covered header body
      let isSigned ← (isSignedByAny signed (signature key signed) keys).mapError
        (.failure ∘ .secret)
      if isSigned = false then throw .invalid
      checkClaims claims now
      return claims := by
  have algorithmNamed : (Entries.field? fields "alg").bind Value.str? = some algorithm := by
    rw [named]
    rfl
  rw [accept, ofToken?_compact]
  simp only [require, decodeLenient?_encodeUrl, headed, algorithmNamed, candidates, stated, ok_bind,
    mapError_ok]
  rfl

theorem isPlain_header : header.isPlain := by decide

theorem readObject_header {depth : Nat} (level : 0 < depth) :
    readObject depth (Encoding.encodeUtf8 (Json.write Json.Style.compactAscii header)) =
      .ok (Entries.ofFields [("alg", .str algorithm), ("typ", .str "JWT")]) :=
  readObject_write isPlain_header level

theorem accept_encode {depth : Nat} {secret : String} {keys : List Value} {es : Entries}
    (key : Bytes) (candidates : Secret.candidates depth secret = .ok keys)
    (plain : (Value.dict es).isPlain) (level : (Value.dict es).depth ≤ depth)
    (now : ClockReading) :
    accept depth (encode key header (.dict es)) secret now = do
      let signed := signedText header (.dict es)
      let isSigned ← (isSignedByAny signed (signature key signed) keys).mapError
        (.failure ∘ .secret)
      if isSigned = false then throw .invalid
      checkClaims es now
      return es :=
  accept_compact key candidates (readObject_header (Nat.lt_of_lt_of_le (Nat.succ_pos _) level))
    (by rfl) (readObject_write plain level) now

end Token
end PushDispatch
