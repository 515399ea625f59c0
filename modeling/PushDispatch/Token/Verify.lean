import PushDispatch.Token.Issue

/-!
The check of a token. A token that is malformed, wrongly signed, expired or not yet valid is refused
like none at all; only a secret that is no key, and a moment that is no number, are failures.

The signature is checked before anything is read from the claims.
-/

namespace PushDispatch.Token

/-- Why the check of a token failed, which is not the same as that the token is refused. -/
inductive CheckFailure where
  | secret (cause : Secret.Error)
  | notNumber (typeName : String)
  | infinite
  | clock (cause : ClockError)
  | halted (cause : Json.Halt)
  deriving Repr

def CheckFailure.message : CheckFailure → String
  | .secret cause => cause.message
  | .notNumber typeName => "int() argument must be a string, a bytes-like object or a real number, "
      ++ s!"not '{typeName}'"
  | .infinite => Span.Error.infinite.message
  | .clock cause => cause.message
  | .halted cause => cause.message

inductive Refusal where
  | invalid
  | failure (cause : CheckFailure)
  deriving Repr

/-- The texts of a token's parts; `signed` is what the signature covers. -/
structure Parts where
  signed : List Char
  header : List Char
  claims : List Char
  signature : List Char
  deriving Repr

/-- The last point ends what is signed, the first one the header. -/
def Parts.ofToken? (token : List Char) : Option Parts := do
  let (signed, signature) ← Split.atLast '.' token
  let (header, claims) ← Split.atFirst '.' signed
  return ⟨signed, header, claims, signature⟩

def readObject (depth : Nat) (bytes : Bytes) : Except Refusal Entries :=
  match Encoding.decodeUtf8 bytes with
  | .error _ => .error .invalid
  | .ok text =>
    match Json.readChars Json.boundedNumber depth text with
    | .ok (.dict entries) => .ok entries
    | .ok _ | .error .malformed => .error .invalid
    | .error (.halted cause) => .error (.failure (.halted cause))

/-- Is one of the keys the signer's? They are tried in turn; one that is no key ends the search. -/
def isSignedByAny (message : List Char) (sig : Bytes) : List Value → Except Secret.Error Bool
  | [] => .ok false
  | candidate :: rest => do
    let key ← Secret.key candidate
    if signature key message = sig then return true
    isSignedByAny message sig rest

def seconds : Value → Except Refusal Int
  | .bool b => .ok b.toNat
  | .int n => .ok n
  | .str s => (Numeral.read s).mapError fun _ => .invalid
  | .float d =>
    match d.extent with
    | .undefined => .error .invalid
    | .infinite _ => .error (.failure .infinite)
    | .finite units => .ok (units.tdiv Double.unitsPerOne)
  | v => .error (.failure (.notNumber v.typeName))

def moment? (claims : Entries) (name : String) : Except Refusal (Option Int) :=
  match Entries.field? claims name with
  | none => .ok none
  | some v => (seconds v).map some

/--
A claim that is a moment must satisfy a test with the present one in whole seconds. Where it is
absent nobody looks at the clock.
-/
def checkMoment (claims : Entries) (name : String) (now : ClockReading) (test : Int → Int → Bool) :
    Except Refusal Unit := do
  match ← moment? claims name with
  | none => return ()
  | some claimed =>
    let micros ← now.micros.mapError (.failure ∘ .clock)
    if test claimed (Span.wholeSeconds micros) then return () else throw .invalid

def isTextOrAbsent (claims : Entries) (name : String) : Bool :=
  match Entries.field? claims name with
  | none => true
  | some (.str _) => true
  | some _ => false

/--
The requirements on the claims, in their order. Nobody is expected as audience and no access token
comes with the message, so a claim about either cannot be met.
-/
def checkClaims (claims : Entries) (now : ClockReading) : Except Refusal Unit := do
  let _ ← moment? claims "iat"
  checkMoment claims "nbf" now fun start now => start ≤ now
  checkMoment claims "exp" now fun ending now => now ≤ ending
  if Entries.hasField claims "aud" then throw .invalid
  if isTextOrAbsent claims "sub" = false then throw .invalid
  if isTextOrAbsent claims "jti" = false then throw .invalid
  if Entries.hasField claims "at_hash" then throw .invalid

def require : Option α → Except Refusal α
  | some a => .ok a
  | none => .error .invalid

def accept (depth : Nat) (token : List Char) (secret : String) (now : ClockReading) :
    Except Refusal Entries := do
  let parts ← require (Parts.ofToken? token)
  let header ← readObject depth (← require (Base64.decodeLenient? parts.header))
  let body ← require (Base64.decodeLenient? parts.claims)
  let sig ← require (Base64.decodeLenient? parts.signature)
  if (Entries.field? header "alg").bind Value.str? ≠ some algorithm then throw .invalid
  let keys ← (Secret.candidates depth secret).mapError (.failure ∘ .secret)
  let isSigned ← (isSignedByAny parts.signed sig keys).mapError (.failure ∘ .secret)
  if isSigned = false then throw .invalid
  let claims ← readObject depth body
  checkClaims claims now
  return claims

/-- The subject of a token that is accepted; none when the token is refused, or names no subject. -/
def verify (depth : Nat) (token secret : String) (now : ClockReading) :
    Except CheckFailure (Option String) :=
  match accept depth token.toList secret now with
  | .ok claims => .ok ((Entries.field? claims "sub").bind Value.str?)
  | .error .invalid => .ok none
  | .error (.failure cause) => .error cause

end PushDispatch.Token
