import PushDispatch.Base64
import PushDispatch.Json.Reader
import PushDispatch.Text.Split
import PushDispatch.Value.Display
import PushDispatch.Value.Mapping

/-!
Secrets of the server and the signing keys they stand for. To sign, a secret is a key as it is; to
check a signature, a secret that is JSON may hold one key or several, which are tried in turn.

A public key in a place where a shared key belongs is refused: whoever knows it could sign.
-/

namespace PushDispatch.Secret

inductive Error where
  | notText
  | notSymmetric (kind : Value)
  | asymmetric
  | keyNotText (typeName : String)
  /-- The key is no base-64 text; it has so many symbols. -/
  | undecodable (symbols : Nat)
  | notIterable (typeName : String)
  /-- The secret is JSON with a surrogate on its own in a text. -/
  | surrogate
  deriving Repr

def Error.message : Error → String
  | .notText => "Expecting a string- or bytes-formatted key."
  | .notSymmetric kind =>
    "Incorrect key type. Expected: 'oct', Received: " ++ String.ofList kind.plain
  | .asymmetric => "The specified key is an asymmetric key or x509 certificate "
      ++ "and should not be used as an HMAC secret."
  | .keyNotText typeName => s!"'{typeName}' object has no attribute 'encode'"
  | .undecodable symbols =>
    if symbols % 4 = 1 then
      s!"Invalid base64-encoded string: number of data characters ({symbols}) "
        ++ "cannot be 1 more than a multiple of 4"
    else "Incorrect padding"
  | .notIterable typeName => s!"'{typeName}' object is not iterable"
  | .surrogate => Json.Halt.surrogate.message

def shellAlgorithms : List String :=
  ["ssh-ed25519", "ssh-rsa", "ssh-dss", "ecdsa-sha2-nistp256", "ecdsa-sha2-nistp384",
    "ecdsa-sha2-nistp521"]

/-- What the begin line of armoured key material may announce. -/
def armourLabels : List String :=
  ["CERTIFICATE", "TRUSTED CERTIFICATE", "PRIVATE KEY", "PUBLIC KEY", "ENCRYPTED PRIVATE KEY",
    "OPENSSH PRIVATE KEY", "DSA PRIVATE KEY", "RSA PRIVATE KEY", "RSA PUBLIC KEY", "EC PRIVATE KEY",
    "DH PARAMETERS", "NEW CERTIFICATE REQUEST", "CERTIFICATE REQUEST", "SSH2 PUBLIC KEY",
    "SSH2 ENCRYPTED PRIVATE KEY", "X509 CRL"]

/-- The begin lines of a label: a blank may stand for the inner dash on either side. -/
def armourLines (label : String) : List (List Char) :=
  let dashes := "----".toList
  ['-', ' '].flatMap fun left => ['-', ' '].map fun right =>
    dashes ++ left :: "BEGIN ".toList ++ label.toList ++ right :: dashes

def isSpace (c : Char) : Bool := c == ' ' || decide (9 ≤ c.toNat ∧ c.toNat ≤ 13)

/-- A certificate of a secure shell: its kind, which ends so, then blanks and more. -/
def isShellCertificate (cs : List Char) : Bool :=
  let kind := cs.takeWhile (!isSpace ·)
  let rest := cs.dropWhile (!isSpace ·)
  let blanks := rest.takeWhile fun c => c == ' ' || c == '\t'
  let next := rest.dropWhile fun c => c == ' ' || c == '\t'
  "-cert-v01@openssh.com".toList.isSuffixOf kind && !blanks.isEmpty && next.head?.any (!isSpace ·)

def looksAsymmetric (cs : List Char) : Bool :=
  (armourLabels.flatMap armourLines).any (Split.occurs · cs)
    || shellAlgorithms.any (Split.occurs ·.toList cs)
    || isShellCertificate cs

def textKey (s : String) : Except Error Bytes :=
  if looksAsymmetric s.toList then .error .asymmetric else .ok (Encoding.encodeUtf8 s.toList)

def objectKey (entries : Entries) : Except Error Bytes :=
  match Entries.field? entries "kty" with
  | some (.str "oct") =>
    match Entries.field? entries "k" with
    | some (.str k) =>
      match Base64.decodeLenient? k.toList with
      | some key => .ok key
      | none => .error (.undecodable (Base64.symbolCount k.toList))
    | v => .error (.keyNotText (v.getD .null).typeName)
  | kind => .error (.notSymmetric (kind.getD .null))

def key : Value → Except Error Bytes
  | .dict entries => objectKey entries
  | .str s => textKey s
  | _ => .error .notText

def members (v : Value) : Except Error (List Value) :=
  match v.members? with
  | some items => .ok items
  | none => .error (.notIterable v.typeName)

/--
The candidates for the key when a signature is checked. JSON that is nested too deep to be read
counts as no JSON.
-/
def candidates (depth : Nat) (secret : String) : Except Error (List Value) :=
  match Json.readText Json.numberText depth secret with
  | .error .malformed | .error (.halted (.tooDeep _)) => .ok [.str secret]
  | .error (.halted .surrogate) => .error .surrogate
  | .ok (.dict entries) =>
    match Entries.field? entries "keys" with
    | some v => members v
    | none =>
      if Entries.hasField entries "kty" || entries.isEmpty then .ok [.dict entries]
      else .ok (entries.map (·.2))
  | .ok (.list items) => .ok items
  | .ok v => .ok [v]

end PushDispatch.Secret
