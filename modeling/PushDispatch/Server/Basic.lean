import PushDispatch.Dispatch
import PushDispatch.Named
import PushDispatch.Registry
import PushDispatch.Server.Options
import PushDispatch.Server.PathTemplate
import PushDispatch.Server.Request

/-!
The server before requests come in: handlers are registered, values bound for them, and the server
is set up, which freezes the table of handlers.
-/

namespace PushDispatch

/-- What requests are answered from once a server is set up. -/
structure Site where
  table : Table (Handler Request)
  healthcheck : PathTemplate
  push : PathTemplate

/-- How many lists and objects can be open at once in what is read and what is answered. -/
structure Room where
  token : Nat
  body : Nat
  data : Nat
  answer : Nat

structure Server where
  name : String
  options : ServerOptions
  room : Room
  registry : Registry (Handler Request) := {}
  bindings : Entries := []
  decorations : Entries := []
  site : Option Site := none

inductive SharingError where
  | mapping (cause : MappingError)
  /-- The keyword bears the name of something that is given anyway. -/
  | repeated (name : String)
  | reservedBindings (names : List String)
  | reservedDecoration (name : String)
  | decoratedBefore (name : String)
  deriving DecidableEq, Repr

def SharingError.message : SharingError → String
  | .mapping cause => cause.message
  | .repeated name => s!"Subpar.bind() got multiple values for argument '{name}'"
  | .reservedBindings names => "cannot bind reserved context names: "
      ++ String.ofList (Layout.bracketed (names.map fun n => Quoted.quoteChars n.toList))
  | .reservedDecoration name => s!"cannot decorate reserved context name '{name}'"
  | .decoratedBefore name => s!"context decoration '{name}' already defined"

inductive SetUpError where
  | freeze (cause : FreezeError)
  | untitled
  | path (cause : PathTemplate.Error)
  deriving DecidableEq, Repr

def SetUpError.message : SetUpError → String
  | .freeze cause => cause.message
  | .untitled => "A title must be provided for OpenAPI, e.g.: 'My API'"
  | .path cause => cause.message

inductive StartError where
  | setUp (cause : SetUpError)
  /-- The option bears the name of the server itself. -/
  | repeatedServer
  /-- The option bears the name of one that the server sets. -/
  | repeatedOption (name : String)
  deriving DecidableEq, Repr

def StartError.message : StartError → String
  | .setUp cause => cause.message
  | .repeatedServer => "Subpar.start() got multiple values for argument 'self'"
  | .repeatedOption name =>
    s!"uvicorn.main.run() got multiple values for keyword argument '{name}'"

structure Server.Step (ε α : Type) where
  server : Server
  outcome : Except ε α
  log : List LogRecord := []

namespace Server

def logger : String := "subpar.main"

/--
Shares values with every handler, all of them or none; keywords count after the others. The others
may also come as the keyword `values`, but not both ways at once.
-/
def bind (s : Server) (values : Option Value) (keywords : Named Value) :
    Except SharingError Server := do
  let taken := if values.isSome then ["self", "values"] else ["self"]
  if let some name := keywords.names.find? taken.contains then throw (.repeated name)
  let given := values.getD ((keywords.lookup "values").getD .null)
  let entries ← (Entries.ofValue given).mapError .mapping
  let merged := entries.merge (Entries.ofFields (keywords.filter (·.1 ≠ "values")))
  match Context.ownNames.filter (Entries.hasField merged) with
  | [] => return { s with bindings := Entries.merge s.bindings merged }
  | reserved => throw (.reservedBindings reserved)

/-- Shares a value under a name of its own; anything that can be a key can be a name. -/
def decorate (s : Server) (name value : Value) : Except SharingError Server := do
  let key ← (Key.ofValue name).mapError .mapping
  if key.text?.any Context.ownNames.contains then throw (.reservedDecoration key.name)
  if (Entries.lookup? s.decorations key).isSome then throw (.decoratedBefore key.name)
  return { s with decorations := Entries.insert s.decorations key value }

def register (s : Server) (candidate : Candidate (Handler Request)) (condition : Value) :
    Step RegistrationError (Option Nat) :=
  let step := s.registry.register candidate condition
  ⟨{ s with registry := step.registry }, step.outcome, step.log⟩

/-- The site that a server makes of a table; the probe's path is looked at first. -/
def build (s : Server) (table : Table (Handler Request)) : Except SetUpError Site := do
  if s.name = "" then throw .untitled
  let healthcheck ← (PathTemplate.read s.options.healthcheckPath).mapError .path
  let push ← (PathTemplate.read s.options.path).mapError .path
  return { table, healthcheck, push }

/--
Freezes the registry and keeps the site that its table makes. Once that has succeeded, no call
changes anything; a failure after the registry is frozen leaves it so.
-/
def setUp (s : Server) : Step SetUpError Site :=
  match s.site with
  | some site => ⟨s, .ok site, []⟩
  | none =>
    let step := s.registry.freeze
    let outcome := (step.outcome.mapError .freeze).bind s.build
    ⟨{ s with registry := step.registry, site := outcome.toOption }, outcome, step.log⟩

def startRecord (s : Server) : LogRecord :=
  ⟨Level.info, logger, s!"Started function '{s.name}' in {s.options.environment} mode on port "
    ++ toString s.options.port.val ++ s!" with handler for: POST {s.options.path}"⟩

/-- Sets the server up and announces that it starts; what it sets itself cannot be given again. -/
def start (s : Server) (given : List String) : Step StartError Site :=
  if given.contains "self" then ⟨s, .error .repeatedServer, []⟩
  else
    let step := s.setUp
    match step.outcome with
    | .error cause => ⟨step.server, .error (.setUp cause), step.log⟩
    | .ok site =>
      let outcome := match given.find? ["host", "port"].contains with
        | some name => .error (.repeatedOption name)
        | none => .ok site
      ⟨step.server, outcome, step.log ++ [s.startRecord]⟩

end Server
end PushDispatch
