import PushDispatch.Context
import PushDispatch.Envelope.Decode
import PushDispatch.Failure
import PushDispatch.Table

/-!
Dispatch of one message: decode it, pick the handler and run it. A body that is no envelope goes to
the catch-all in salvaged form, never to a handler with a condition.
-/

namespace PushDispatch

variable {ρ : Type}

/--
What a handler returns. Beside a value it may be a complete response, or what the context showed
it: the error of the envelope, or an object of the transport.
-/
inductive Reply where
  | value (v : Value)
  | response (status : Nat) (body : String)
  | validationError (e : EnvelopeError)
  | transport (typeName : String)

inductive DispatchError where
  | handler (cause : Failure)
  | noHandlerAt (index : Int)
  | halted (cause : Json.Halt)
  deriving DecidableEq, Repr

structure Handler (ρ : Type) where
  name : String
  run : Envelope → Context ρ → Except Failure Reply

inductive Outcome where
  | handled
  | noContent
  | invalid
  deriving DecidableEq, Repr

def Outcome.name : Outcome → String
  | .handled => "handled"
  | .noContent => "no_content"
  | .invalid => "invalid"

structure DispatchResult where
  outcome : Outcome
  handlerIndex : Option Int := none
  catchAll : Bool := false
  value : Reply := .value .null
  error : Option EnvelopeError := none

structure Invocation (ρ : Type) where
  handler : Handler ρ
  envelope : Envelope
  context : Context ρ

/-- All that one dispatch does; `invocations` are the handlers it runs, in their order. -/
structure Delivery (ρ : Type) where
  outcome : Except DispatchError DispatchResult
  invocations : List (Invocation ρ) := []
  /-- The context as it stands afterwards. -/
  context : Context ρ
  log : List LogRecord := []

namespace Invocation

def reply (i : Invocation ρ) : Except Failure Reply := i.handler.run i.envelope i.context

def deliver (i : Invocation ρ) (result : Reply → DispatchResult) (log : List LogRecord) :
    Delivery ρ :=
  { outcome := (i.reply.map result).mapError .handler
    invocations := [i]
    context := i.context
    log }

end Invocation

namespace Dispatch

def logger : String := "subpar.dispatch"

def debug (message : String) : LogRecord := ⟨Level.debug, logger, message⟩

def nameOf : Option String → String
  | some s => s
  | none => "None"

def describe (e : Envelope) : String :=
  s!"message {nameOf e.id} on {nameOf e.subscription} matched "

def deliver (table : Table (Handler ρ)) (e : Envelope) (context : Context ρ) : Delivery ρ :=
  match table.resolve? e with
  | some index =>
    match table.handlerAt? index with
    | some handler =>
      Invocation.deliver ⟨handler, e, context⟩
        (fun value => { outcome := .handled, handlerIndex := some index, value })
        [debug (describe e ++ s!"handler {index}")]
    | none =>
      { outcome := .error (.noHandlerAt index)
        context
        log := [debug (describe e ++ s!"handler {index}")] }
  | none =>
    match table.catchAll with
    | some handler =>
      Invocation.deliver ⟨handler, e, context⟩
        (fun value => { outcome := .handled, catchAll := true, value })
        [debug (describe e ++ "no condition, using catch-all")]
    | none =>
      { outcome := .ok { outcome := .noContent }
        context
        log := [debug (describe e ++ "no handler")] }

/-- The data of the message cannot be read to its end. -/
def halt (cause : Json.Halt) (context : Context ρ) : Delivery ρ :=
  { outcome := .error (.halted cause), context }

/-- The message is no envelope: the catch-all sees what could be salvaged and what was wrong. -/
def reject (depth : Nat) (table : Table (Handler ρ)) (raw : Value) (cause : EnvelopeError)
    (context : Context ρ) : Delivery ρ :=
  match table.catchAll with
  | some handler =>
    let told := { context with validationError := some cause }
    match Envelope.salvage depth raw with
    | .ok e =>
      Invocation.deliver ⟨handler, e, told⟩
        (fun value => { outcome := .handled, catchAll := true, value, error := some cause })
        (Envelope.salvageLog depth raw)
    | .error cause => halt cause told
  | none =>
    { outcome := .ok { outcome := .invalid, error := some cause }
      context
      log := [⟨Level.error, logger,
        s!"dropping invalid envelope ({cause.reason.name}): {cause.message}"⟩] }

/-- The data of a message, where it is text, is read down to a depth. -/
def dispatch (depth : Nat) (table : Table (Handler ρ)) (raw : Value) (context : Context ρ) :
    Delivery ρ :=
  let delivery := match Envelope.decode depth raw with
    | .ok e => deliver table e context
    | .error (.refused cause) => reject depth table raw cause context
    | .error (.halted cause) => halt cause context
  { delivery with log := Envelope.decodeLog depth raw ++ delivery.log }

/-- Messages in flight at once, each with a context of its own; the results are in their order. -/
def gather (depth : Nat) (table : Table (Handler ρ)) (raws : List Value) : List (Delivery ρ) :=
  raws.map fun raw => dispatch depth table raw {}

end Dispatch
end PushDispatch
