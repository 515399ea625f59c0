import PushDispatch.Dispatch
import PushDispatch.Proofs.Registry.History

/-! Dispatches in flight at once, step by step, in one memory. A dispatcher has the address of its
table and reads the table anew at every step; every dispatch makes a context in the same memory
and writes to it there; the registry goes on adding tables beside. Any dispatch may take the next
step, and so may the registry. -/
namespace PushDispatch.Concurrent

variable {ρ : Type}

inductive Place where
  | thread
  | loop
  deriving DecidableEq, Repr

/-- A plain function, a coroutine function, or a plain function that returns an awaitable. -/
inductive Manner where
  | sync
  | async
  | awaitable
  deriving DecidableEq, Repr

/-- Where a handler begins, and where it goes on after that. -/
def Manner.places : Manner → Place × List Place
  | .sync => (.thread, [])
  | .async => (.loop, [])
  | .awaitable => (.thread, [.loop])

/-- Tables and contexts by their addresses, and the fields of the registry. -/
structure Memory (ρ : Type) where
  tables : List (Table (Handler ρ))
  contexts : List (Context ρ)
  state : RegistryState
  counter : Nat
  current : Nat

namespace Memory

def registry? (m : Memory ρ) : Option (Registry (Handler ρ)) :=
  m.tables[m.current]?.map fun table => ⟨m.state, m.counter, table⟩

/-- The registry after a call: its table is another one, at an address of its own. -/
def adopt (m : Memory ρ) (r : Registry (Handler ρ)) : Memory ρ :=
  { m with
    tables := m.tables ++ [r.table], state := r.state, counter := r.counter,
    current := m.tables.length }

def allocate (m : Memory ρ) : Memory ρ := { m with contexts := m.contexts ++ [{}] }

def write (m : Memory ρ) (address : Nat) (c : Context ρ) : Memory ρ :=
  { m with contexts := m.contexts.set address c }

end Memory

structure Run (ρ : Type) where
  handler : Handler ρ
  envelope : Envelope
  context : Nat
  result : Reply → DispatchResult

inductive Phase (ρ : Type) where
  | waiting
  | resolved (e : Envelope) (context : Nat) (index : Option Int)
  | rejected (cause : EnvelopeError) (context : Nat)
  | marked (cause : EnvelopeError) (context : Nat)
  | running (run : Run ρ) (place : Place) (later : List Place)
  | completed (run : Run ρ) (reply : Except Failure Reply)
  | finished (outcome : Except DispatchError DispatchResult)

def Phase.outcome? : Phase ρ → Option (Except DispatchError DispatchResult)
  | .finished outcome => some outcome
  | _ => none

def Run.begin (run : Run ρ) (manner : Manner) : Phase ρ :=
  .running run manner.places.1 manner.places.2

/-- One step of one dispatch on the table at an address: the memory and the phase before and after,
and the handler that it starts. -/
inductive Advance (depth dispatcher : Nat) (manner : Handler ρ → Manner) (raw : Value)
    (m : Memory ρ) : Phase ρ → Memory ρ → Phase ρ → List (Invocation ρ) → Prop where
  | resolve {table : Table (Handler ρ)} {e : Envelope} (at? : m.tables[dispatcher]? = some table)
      (decoded : Envelope.decode depth raw = .ok e) :
      Advance depth dispatcher manner raw m .waiting m.allocate
        (.resolved e m.contexts.length (table.resolve? e)) []
  | reject {cause : EnvelopeError} (decoded : Envelope.decode depth raw = .error (.refused cause)) :
      Advance depth dispatcher manner raw m .waiting m.allocate
        (.rejected cause m.contexts.length) []
  | halt {cause : Json.Halt} (decoded : Envelope.decode depth raw = .error (.halted cause)) :
      Advance depth dispatcher manner raw m .waiting m.allocate
        (.finished (.error (.halted cause))) []
  | start {table : Table (Handler ρ)} {e : Envelope} {address : Nat} {index : Int}
      {handler : Handler ρ} {c : Context ρ} (at? : m.tables[dispatcher]? = some table)
      (found : table.handlerAt? index = some handler) (read : m.contexts[address]? = some c) :
      Advance depth dispatcher manner raw m (.resolved e address (some index)) m
        (Run.begin ⟨handler, e, address,
          fun value => { outcome := .handled, handlerIndex := some index, value }⟩ (manner handler))
        [⟨handler, e, c⟩]
  | misplaced {table : Table (Handler ρ)} {e : Envelope} {address : Nat} {index : Int}
      (at? : m.tables[dispatcher]? = some table) (absent : table.handlerAt? index = none) :
      Advance depth dispatcher manner raw m (.resolved e address (some index)) m
        (.finished (.error (.noHandlerAt index))) []
  | startCatchAll {table : Table (Handler ρ)} {e : Envelope} {address : Nat}
      {handler : Handler ρ} {c : Context ρ} (at? : m.tables[dispatcher]? = some table)
      (found : table.catchAll = some handler) (read : m.contexts[address]? = some c) :
      Advance depth dispatcher manner raw m (.resolved e address none) m
        (Run.begin ⟨handler, e, address,
          fun value => { outcome := .handled, catchAll := true, value }⟩ (manner handler))
        [⟨handler, e, c⟩]
  | leave {table : Table (Handler ρ)} {e : Envelope} {address : Nat}
      (at? : m.tables[dispatcher]? = some table) (absent : table.catchAll = none) :
      Advance depth dispatcher manner raw m (.resolved e address none) m
        (.finished (.ok { outcome := .noContent })) []
  | mark {table : Table (Handler ρ)} {cause : EnvelopeError} {address : Nat}
      {handler : Handler ρ} {c : Context ρ} (at? : m.tables[dispatcher]? = some table)
      (found : table.catchAll = some handler) (read : m.contexts[address]? = some c) :
      Advance depth dispatcher manner raw m (.rejected cause address)
        (m.write address { c with validationError := some cause }) (.marked cause address) []
  | drop {table : Table (Handler ρ)} {cause : EnvelopeError} {address : Nat}
      (at? : m.tables[dispatcher]? = some table) (absent : table.catchAll = none) :
      Advance depth dispatcher manner raw m (.rejected cause address) m
        (.finished (.ok { outcome := .invalid, error := some cause })) []
  /-- A message that was rejected can be salvaged, so this step has no other side. -/
  | startMarked {table : Table (Handler ρ)} {cause : EnvelopeError} {address : Nat}
      {handler : Handler ρ} {c : Context ρ} {e : Envelope}
      (at? : m.tables[dispatcher]? = some table)
      (found : table.catchAll = some handler) (read : m.contexts[address]? = some c)
      (salvaged : Envelope.salvage depth raw = .ok e) :
      Advance depth dispatcher manner raw m (.marked cause address) m
        (Run.begin ⟨handler, e, address,
          fun value => { outcome := .handled, catchAll := true, value, error := some cause }⟩
          (manner handler))
        [⟨handler, e, c⟩]
  /-- A handler may be suspended at any time, and as often as it likes. -/
  | suspend {run : Run ρ} {place : Place} {later : List Place} :
      Advance depth dispatcher manner raw
        m (.running run place later) m (.running run place later) []
  | handOver {run : Run ρ} {place next : Place} {later : List Place} :
      Advance depth dispatcher manner raw m (.running run place (next :: later)) m
        (.running run next later) []
  | complete {run : Run ρ} {place : Place} {c : Context ρ}
      (read : m.contexts[run.context]? = some c) :
      Advance depth dispatcher manner raw m (.running run place []) m
        (.completed run (run.handler.run run.envelope c)) []
  | finish {run : Run ρ} {reply : Except Failure Reply} :
      Advance depth dispatcher manner raw m (.completed run reply) m
        (.finished ((reply.map run.result).mapError .handler)) []

structure Task (ρ : Type) where
  raw : Value
  phase : Phase ρ

structure State (ρ : Type) where
  memory : Memory ρ
  tasks : List (Task ρ)
  trace : List (Invocation ρ)

inductive Step (depth dispatcher : Nat) (manner : Handler ρ → Manner) (s : State ρ) :
    State ρ → Prop where
  | registry {r : Registry (Handler ρ)} (held : s.memory.registry? = some r)
      (call : Registry.Call (Handler ρ)) :
      Step depth dispatcher manner s { s with memory := s.memory.adopt (r.perform call).1 }
  | dispatch {i : Nat} {task : Task ρ} {m : Memory ρ} {phase : Phase ρ}
      {started : List (Invocation ρ)} (at? : s.tasks[i]? = some task)
      (advance : Advance depth dispatcher manner task.raw s.memory task.phase m phase started) :
      Step depth dispatcher manner s
        { memory := m, tasks := s.tasks.set i { task with phase }, trace := s.trace ++ started }

namespace State

/-- All messages wait; the dispatcher's table is the one that the registry has, at address 0. -/
def start (r : Registry (Handler ρ)) (raws : List Value) : State ρ where
  memory := { tables := [r.table], contexts := [], state := r.state, counter := r.counter,
              current := 0 }
  tasks := raws.map fun raw => ⟨raw, .waiting⟩
  trace := []

def outcomes (s : State ρ) : List (Option (Except DispatchError DispatchResult)) :=
  s.tasks.map (·.phase.outcome?)

def IsDone (s : State ρ) : Prop := ∀ task ∈ s.tasks, task.phase.outcome?.isSome

end State
end PushDispatch.Concurrent
