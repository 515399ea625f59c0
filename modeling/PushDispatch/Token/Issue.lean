import PushDispatch.DateTime.Instant
import PushDispatch.Digest.Hmac
import PushDispatch.Json.Writer
import PushDispatch.Token.Secret

/-!
Tokens that a sender of messages proves itself by: a header and claims as JSON, and a signature over
both, each in base 64 with a point between them.
-/

namespace PushDispatch.Token

def algorithm : String := "HS256"

def defaultSubject : String := "push"

/-- How long a token lasts unless said otherwise, in seconds. -/
def defaultLifetime : Nat := 3600

def header : Value := .ofFields [("alg", .str algorithm), ("typ", .str "JWT")]

def claims (subject : Value) (expires issued : Int) : Value :=
  .ofFields [("sub", subject), ("exp", .int expires), ("iat", .int issued)]

def segment (v : Value) : List Char :=
  Base64.encodeUrl (Encoding.encodeUtf8 (Json.write Json.Style.compactAscii v))

def signedText (header claims : Value) : List Char := segment header ++ '.' :: segment claims

def signature (key : Bytes) (signed : List Char) : Bytes :=
  Hmac.sign key (Encoding.encodeUtf8 signed)

def encode (key : Bytes) (header claims : Value) : List Char :=
  let signed := signedText header claims
  signed ++ '.' :: Base64.encodeUrl (signature key signed)

inductive IssueError where
  | clock (cause : ClockError)
  | lifetime (cause : Span.Error)
  /-- The end of the lifetime is outside the years 1 to 9999. -/
  | outOfRange
  | secret (cause : Secret.Error)
  deriving Repr

def IssueError.message : IssueError → String
  | .clock cause => cause.message
  | .lifetime cause => cause.message
  | .outOfRange => "date value out of range"
  | .secret cause => cause.message

def isOnCalendar (micros : Int) : Bool :=
  let second := Span.wholeSeconds micros
  decide (DateTime.firstSecond ≤ second ∧ second ≤ DateTime.lastSecond)

def issue (secret : String) (subject lifetime : Value) (now : ClockReading) :
    Except IssueError String := do
  let now ← now.micros.mapError .clock
  let expires := now + (← (Span.ofValue lifetime).mapError .lifetime)
  if isOnCalendar expires = false then throw .outOfRange
  let key ← (Secret.textKey secret).mapError .secret
  return String.ofList
    (encode key header (claims subject (Span.wholeSeconds expires) (Span.wholeSeconds now)))

end PushDispatch.Token
