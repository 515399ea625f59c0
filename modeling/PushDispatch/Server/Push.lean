import PushDispatch.Server.Basic
import PushDispatch.Server.Response
import PushDispatch.Token.Bearer
import PushDispatch.Token.Verify

/-!
Requests to a server that is set up. A push must prove itself before its body is read; a body that
is no JSON counts as null.
-/

namespace PushDispatch

inductive Route where
  | healthcheck
  | push
  | wrongMethod
  | unknown
  deriving DecidableEq, Repr

inductive PushFailure where
  /-- A whole number in the path has too many digits. -/
  | pathNumber
  | token (cause : Token.CheckFailure)
  | body (cause : Json.Halt)
  | dispatch (cause : DispatchError)
  | response (cause : JsonError)
  deriving Repr

/-- All that one request brings about. A failure shows as an answer of its own kind. -/
structure Exchange where
  response : Response
  failure : Option PushFailure := none
  invocations : List (Invocation Request) := []
  log : List LogRecord := []

namespace Site

def reaches (t : PathTemplate) (path : String) : Except PushFailure Bool :=
  match t.taken? path.toList with
  | none => .ok false
  | some fields => if PathTemplate.areReadable fields then .ok true else .error .pathNumber

/-- The first way whose path and method are both right; the path alone makes the method wrong. -/
def route (site : Site) (r : Request) : Except PushFailure Route := do
  let isProbe ← reaches site.healthcheck r.path
  if isProbe && r.method == "GET" then return .healthcheck
  let isPush ← reaches site.push r.path
  if isPush && r.method == "POST" then return .push
  return if isProbe || isPush then .wrongMethod else .unknown

end Site

namespace ServerOptions

/-- Does the request prove itself at the moment `now`? Without a secret every request does. -/
def authorizes (o : ServerOptions) (depth : Nat) (r : Request) (now : ClockReading) :
    Except Token.CheckFailure Bool :=
  match Settings.nonEmpty? o.tokenSecret with
  | none => .ok true
  | some secret =>
    match Token.ofHeader? (r.header? "authorization").toOption.join with
    | none => .ok false
    | some token => (Token.verify depth token secret now).map Option.isSome

end ServerOptions

namespace Exchange

def answer (response : Response) : Exchange := { response }

def fail (cause : PushFailure) : Exchange := { response := .failed, failure := some cause }

def payload (depth : Nat) (body : Bytes) : Except Json.Halt Value :=
  match Json.readBytes Json.boundedNumber depth body with
  | .ok v => .ok v
  | .error .malformed => .ok .null
  | .error (.halted cause) => .error cause

def ofDelivery (path : String) (depth : Nat) (d : Delivery Request) : Exchange :=
  let exchange := match d.outcome with
    | .error cause =>
      { fail (.dispatch cause) with
        log := [⟨Level.error, Server.logger, s!"handler failed for push on {path}"⟩] }
    | .ok result =>
      match Response.ofResult depth result with
      | .error cause => fail (.response cause)
      | .ok response => answer response
  { exchange with invocations := d.invocations, log := d.log ++ exchange.log }

end Exchange

namespace Server

def context (s : Server) (r : Request) : Context Request :=
  { bindings := s.bindings, decorations := s.decorations, request := some r }

def dispatch (s : Server) (table : Table (Handler Request)) (r : Request) : Exchange :=
  match Exchange.payload s.room.body r.body with
  | .error cause => .fail (.body cause)
  | .ok raw =>
    .ofDelivery s.options.path s.room.answer
      (Dispatch.dispatch s.room.data table raw (s.context r))

def receive (s : Server) (table : Table (Handler Request)) (r : Request) (now : ClockReading) :
    Exchange :=
  match s.options.authorizes s.room.token r now with
  | .error cause => .fail (.token cause)
  | .ok false => .answer .unauthorized
  | .ok true => s.dispatch table r

def respond (s : Server) (site : Site) (r : Request) (now : ClockReading) : Exchange :=
  match site.route r with
  | .error cause => .fail cause
  | .ok .healthcheck => .answer .alive
  | .ok .push => s.receive site.table r now
  | .ok .wrongMethod => .answer .wrongMethod
  | .ok .unknown => .answer .notFound

/-- What comes of a request. A server that is not set up answers none. -/
def request (s : Server) (r : Request) (now : ClockReading) : Option Exchange :=
  s.site.map fun site => s.respond site r now

end Server
end PushDispatch
