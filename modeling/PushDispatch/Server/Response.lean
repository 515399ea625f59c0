import PushDispatch.Dispatch
import PushDispatch.Json.Writer

/-!
Answers of the server. What a handler returned becomes the answer: nothing an empty one, text plain
text, a complete response itself, and any other value JSON.
-/

namespace PushDispatch

/-- An answer; without a content type its body is bare. -/
structure Response where
  status : Nat
  contentType : Option String := none
  body : String := ""
  deriving DecidableEq, Repr

inductive JsonError where
  | tupleKey
  | notFinite
  | tooLarge
  /-- An envelope holds what is neither JSON nor a tuple. -/
  | notJson (typeName : String)
  /-- The value holds itself. -/
  | endless
  | tooDeep
  deriving DecidableEq, Repr

namespace JsonBody

/-- Members whose names begin so are internal and never sent. -/
def internalMark : List Char := ['_', 's', 'a']

def isInternal : Key → Bool
  | .str s => internalMark.isPrefixOf s.toList
  | _ => false

def ofMessage (id : Option String) (time : Option DateTime) (data attributes : Value) : Value :=
  .ofFields [("message_id", Value.ofText? id),
    ("publish_time", Value.ofText? (time.map DateTime.isoTextZulu)),
    ("data", data), ("attributes", attributes)]

def ofEnvelope (subscription : Option String) (message : Value) : Value :=
  .ofFields [("subscription", Value.ofText? subscription), ("message", message)]

mutual

/-- The text that a key within an envelope becomes: for a tuple, of its items with commas between.
-/
def keyPart : Key → Except JsonError (List Char)
  | .bool b => .ok (Json.boolText b)
  | .int n => if Numeral.isWritable n then .ok (Numeral.chars n) else .error .tooLarge
  | .float d => .ok (if d.isFinite then d.text.toList else Layout.nullText)
  | .tuple items => keyParts items
  | .thunk => .error (.notJson Key.thunk.toValue.typeName)
  | k => .ok k.name.toList

def keyParts : List Key → Except JsonError (List Char)
  | [] => .ok []
  | [k] => keyPart k
  | k :: rest => do return (← keyPart k) ++ ',' :: (← keyParts rest)

end

mutual

/--
A value within an envelope in terms of JSON: a number that is not finite is null there, and of two
keys with one text the later counts, in the place of the earlier.
-/
def flatten : Value → Except JsonError Value
  | .float d => .ok (if d.isFinite then .float d else .null)
  | .list items => (flattenItems items).map .list
  | .tuple items => (flattenItems items).map .list
  | .dict entries => (flattenMembers entries).map fun members => .dict (Entries.collapse members)
  | .proxy layers entries => .error (.notJson (Value.proxy layers entries).typeName)
  | .thunk result => .error (.notJson (Value.thunk result).typeName)
  | .message id time data attributes => do
    return ofMessage id time (← flatten data) (← flatten attributes)
  | .envelope subscription id time data attributes => do
    return ofEnvelope subscription (ofMessage id time (← flatten data) (← flatten attributes))
  | v => .ok v

def flattenItems : List Value → Except JsonError (List Value)
  | [] => .ok []
  | v :: rest => do return (← flatten v) :: (← flattenItems rest)

/-- Internal members go only after their values have been looked at. -/
def flattenMembers : List (Key × Value) → Except JsonError (List (Key × Value))
  | [] => .ok []
  | (k, v) :: rest => do
    let key := Key.str (String.ofList (← keyPart k))
    let value ← flatten v
    let members ← flattenMembers rest
    return if isInternal key then members else (key, value) :: members

end

mutual

/-- The value in terms of JSON. A function is an object without members; no tuple names a member. -/
def prepare : Value → Except JsonError Value
  | .list items => (prepareItems items).map .list
  | .tuple items => (prepareItems items).map .list
  | .dict entries => (prepareMembers entries).map .dict
  | .proxy _ entries => (prepareMembers entries).map .dict
  | .thunk _ => .ok (.dict [])
  | .message id time data attributes => do
    return ofMessage id time (← flatten data) (← flatten attributes)
  | .envelope subscription id time data attributes => do
    return ofEnvelope subscription (ofMessage id time (← flatten data) (← flatten attributes))
  | v => .ok v

def prepareItems : List Value → Except JsonError (List Value)
  | [] => .ok []
  | v :: rest => do return (← prepare v) :: (← prepareItems rest)

def prepareMembers : List (Key × Value) → Except JsonError (List (Key × Value))
  | [] => .ok []
  | (k, v) :: rest =>
    if isInternal k then prepareMembers rest
    else
      match k, prepare v with
      | _, .error cause => .error cause
      | .tuple _, .ok _ | .thunk, .ok _ => .error .tupleKey
      | k, .ok v => (prepareMembers rest).map ((k, v) :: ·)

end

def keyIsFinite : Key → Bool
  | .float d => d.isFinite
  | _ => true

mutual

def isFinite : Value → Bool
  | .float d => d.isFinite
  | .list items => areFinite items
  | .tuple items => areFinite items
  | .dict entries => membersFinite entries
  | .proxy _ entries => membersFinite entries
  | _ => true

def areFinite : List Value → Bool
  | [] => true
  | v :: rest => isFinite v && areFinite rest

def membersFinite : List (Key × Value) → Bool
  | [] => true
  | (k, v) :: rest => keyIsFinite k && isFinite v && membersFinite rest

end

def text (depth : Nat) (v : Value) : Except JsonError String := do
  let w ← prepare v
  if depth < w.depth then throw .tooDeep
  if isFinite w = false then throw .notFinite
  if w.isWritable = false then throw .tooLarge
  return Json.writeText Json.Style.compact w

def ofFault (f : Fault) : Value :=
  .ofFields [("type", .str f.cause.code), ("loc", .list (f.loc.map Key.toValue)),
    ("msg", .str f.cause.message), ("input", f.input)]

def ofError (e : EnvelopeError) : Value :=
  .ofFields [("reason", .str e.reason.name), ("details", .list (e.details.map ofFault))]

end JsonBody

namespace Response

def jsonType : String := "application/json"

def textType : String := "text/plain; charset=utf-8"

def json (status : Nat) (body : String) : Response := ⟨status, some jsonType, body⟩

def text (status : Nat) (body : String) : Response := ⟨status, some textType, body⟩

def report (status : Nat) (name : String) (value : Value) : Response :=
  json status (Json.writeText Json.Style.compact (.ofFields [(name, value)]))

def alive : Response := report 200 "alive" (.bool true)

def notFound : Response := report 404 "detail" (.str "Not Found")

def wrongMethod : Response := report 405 "detail" (.str "Method Not Allowed")

def unauthorized : Response := report 401 "detail" (.str "invalid push token")

def failed : Response := text 500 "Internal Server Error"

def ofReply (depth : Nat) : Reply → Except JsonError Response
  | .response status body => .ok { status, body }
  | .value .null => .ok { status := 200 }
  | .value (.str s) => .ok (text 200 s)
  | .value v => (JsonBody.text depth v).map (json 200)
  | .validationError e => (JsonBody.text depth (JsonBody.ofError e)).map (json 200)
  | .transport _ => .error .endless

/-- A message that no handler took is acknowledged all the same, so that it is not sent again. -/
def ofResult (depth : Nat) (r : DispatchResult) : Except JsonError Response :=
  if r.outcome = .handled then ofReply depth r.value else .ok { status := 204 }

end Response
end PushDispatch
