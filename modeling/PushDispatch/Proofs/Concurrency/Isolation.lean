import PushDispatch.Proofs.Concurrency.Steps
import PushDispatch.Proofs.Envelope.Salvage
import Mathlib.Data.List.Flatten
import Mathlib.Data.List.Perm.Subperm
import Mathlib.Logic.Relation

/-! Dispatches in flight at once do not interfere: each ends as it does alone, and together they
start the handlers that they start one after the other. The invariant says of every dispatch how far
the one of its message alone has been carried out, and that no two have one context. -/
namespace PushDispatch.Concurrent

variable {ρ : Type}

/-- The run is what the dispatch of the message alone consists in. -/
structure Run.Performs (depth : Nat) (run : Run ρ) (table : Table (Handler ρ)) (raw : Value)
    (c : Context ρ) :
    Prop where
  invocations : (Dispatch.dispatch depth table raw {}).invocations =
      [⟨run.handler, run.envelope, c⟩]
  outcome : (Dispatch.dispatch depth table raw {}).outcome
    = ((run.handler.run run.envelope c).map run.result).mapError .handler

namespace Phase

def address? : Phase ρ → Option Nat
  | .resolved _ address _ | .rejected _ address | .marked _ address => some address
  | .running run _ _ => some run.context
  | .waiting | .completed .. | .finished _ => none

/-- The phase is one on the way to what the dispatch of the message alone ends with. -/
def Sound (depth : Nat) (table : Table (Handler ρ)) (raw : Value) (contexts : List (Context ρ)) :
    Phase ρ → Prop
  | .waiting => True
  | .resolved e address index =>
    Envelope.decode depth raw = .ok e ∧ index = table.resolve? e ∧ contexts[address]? = some {}
  | .rejected cause address =>
    Envelope.decode depth raw = .error (.refused cause) ∧ contexts[address]? = some {}
  | .marked cause address =>
    Envelope.decode depth raw = .error (.refused cause) ∧ table.catchAll.isSome ∧
      contexts[address]? = some { validationError := some cause }
  | .running run _ _ => ∃ c, contexts[run.context]? = some c ∧ run.Performs depth table raw c
  | .completed run reply =>
    ∃ c, run.Performs depth table raw c ∧ reply = run.handler.run run.envelope c
  | .finished outcome => outcome = (Dispatch.dispatch depth table raw {}).outcome

def started (depth : Nat) (table : Table (Handler ρ)) (raw : Value) : Phase ρ → List (Invocation ρ)
  | .waiting | .resolved .. | .rejected .. | .marked .. => []
  | .running .. | .completed .. | .finished _ => (Dispatch.dispatch depth table raw {}).invocations

/-- A bound on the steps to the end, suspensions aside. -/
@[simp]
def left : Phase ρ → Nat
  | .waiting => 7
  | .rejected .. => 6
  | .resolved .. | .marked .. => 5
  | .running _ _ later => 2 + later.length
  | .completed .. => 1
  | .finished _ => 0

end Phase

theorem dispatch_of_ok {depth : Nat} (table : Table (Handler ρ)) {raw : Value} {e : Envelope}
    (c : Context ρ)
    (h : Envelope.decode depth raw = .ok e) :
    (Dispatch.dispatch depth table raw c).outcome = (Dispatch.deliver table e c).outcome ∧
      (Dispatch.dispatch depth table raw c).invocations =
        (Dispatch.deliver table e c).invocations := by
  rw [Dispatch.dispatch, h]
  exact ⟨rfl, rfl⟩

theorem dispatch_of_refused {depth : Nat} (table : Table (Handler ρ)) {raw : Value}
    {cause : EnvelopeError}
    (c : Context ρ) (h : Envelope.decode depth raw = .error (.refused cause)) :
    (Dispatch.dispatch depth table raw c).outcome =
        (Dispatch.reject depth table raw cause c).outcome ∧
      (Dispatch.dispatch depth table raw c).invocations
        = (Dispatch.reject depth table raw cause c).invocations := by
  rw [Dispatch.dispatch, h]
  exact ⟨rfl, rfl⟩

theorem dispatch_of_halted {depth : Nat} (table : Table (Handler ρ)) {raw : Value}
    {cause : Json.Halt} (c : Context ρ) (h : Envelope.decode depth raw = .error (.halted cause)) :
    (Dispatch.dispatch depth table raw c).outcome = .error (.halted cause) ∧
      (Dispatch.dispatch depth table raw c).invocations = [] := by
  rw [Dispatch.dispatch, h]
  exact ⟨rfl, rfl⟩

/-- What a step of one dispatch leaves as it was, and how it keeps its own phase sound. -/
structure Keeps (depth : Nat) (table : Table (Handler ρ)) (raw : Value) (m : Memory ρ) (p : Phase ρ)
    (m' : Memory ρ) (p' : Phase ρ) (begun : List (Invocation ρ)) : Prop where
  tables : m'.tables = m.tables
  sound : p'.Sound depth table raw m'.contexts
  begun : p'.started depth table raw = p.started depth table raw ++ begun
  /-- Its context is the one it had, or a new one. -/
  own : ∀ a, p'.address? = some a → p.address? = some a ∨ a = m.contexts.length
  /-- Contexts that are not its own stay as they are. -/
  frame : ∀ a c, p.address? ≠ some a → m.contexts[a]? = some c → m'.contexts[a]? = some c

variable {depth dispatcher : Nat} {manner : Handler ρ → Manner} {table : Table (Handler ρ)}
    {raw : Value}
  {m m' : Memory ρ} {p p' : Phase ρ} {begun : List (Invocation ρ)}

theorem frame_allocate {a : Nat} {c : Context ρ} (h : m.contexts[a]? = some c) :
    m.allocate.contexts[a]? = some c := by
  have bound := (List.getElem?_eq_some_iff.1 h).1
  rw [Memory.allocate, List.getElem?_append_left bound, h]

@[simp] theorem allocated : m.allocate.contexts[m.contexts.length]? = some ({} : Context ρ) := by
  simp [Memory.allocate]

theorem Keeps.of_same_memory (sound : p'.Sound depth table raw m.contexts)
    (started : p'.started depth table raw = p.started depth table raw ++ begun)
    (own : ∀ a, p'.address? = some a → p.address? = some a) :
    Keeps depth table raw m p m p' begun where
  tables := rfl
  sound := sound
  begun := started
  own a h := .inl (own a h)
  frame _ _ _ h := h

theorem keeps_of_advance (held : m.tables[dispatcher]? = some table)
    (sound : p.Sound depth table raw m.contexts)
    (advance : Advance depth dispatcher manner raw m p m' p' begun) :
    Keeps depth table raw m p m' p' begun := by
  cases advance with
  | resolve at? decoded =>
    cases held.symm.trans at?
    exact ⟨rfl, ⟨decoded, rfl, allocated⟩, rfl, by rintro a ⟨⟩; exact .inr rfl,
      fun a c _ h => frame_allocate h⟩
  | reject decoded =>
    exact ⟨rfl, ⟨decoded, allocated⟩, rfl, by rintro a ⟨⟩; exact .inr rfl,
      fun a c _ h => frame_allocate h⟩
  | halt decoded =>
    have halted := dispatch_of_halted table {} decoded
    exact ⟨rfl, halted.1.symm, halted.2, nofun, fun a c _ h => frame_allocate h⟩
  | start at? found read =>
    cases held.symm.trans at?
    obtain ⟨decoded, resolved, empty⟩ := sound
    -- the context is still as it was made, so the handler is given what it is given alone
    cases read.symm.trans empty
    have delivered := dispatch_of_ok table {} decoded
    rw [Dispatch.deliver, ← resolved] at delivered
    simp only [found] at delivered
    exact .of_same_memory ⟨{}, empty, delivered.2, delivered.1⟩ delivered.2 fun a h => h
  | misplaced at? absent =>
    cases held.symm.trans at?
    obtain ⟨decoded, resolved, empty⟩ := sound
    have delivered := dispatch_of_ok table {} decoded
    rw [Dispatch.deliver, ← resolved] at delivered
    simp only [absent] at delivered
    exact .of_same_memory delivered.1.symm delivered.2 nofun
  | startCatchAll at? found read =>
    cases held.symm.trans at?
    obtain ⟨decoded, resolved, empty⟩ := sound
    cases read.symm.trans empty
    have delivered := dispatch_of_ok table {} decoded
    rw [Dispatch.deliver, ← resolved, found] at delivered
    exact .of_same_memory ⟨{}, empty, delivered.2, delivered.1⟩ delivered.2 fun a h => h
  | leave at? absent =>
    cases held.symm.trans at?
    obtain ⟨decoded, resolved, empty⟩ := sound
    have delivered := dispatch_of_ok table {} decoded
    rw [Dispatch.deliver, ← resolved, absent] at delivered
    exact .of_same_memory delivered.1.symm delivered.2 nofun
  | mark at? found read =>
    cases held.symm.trans at?
    obtain ⟨decoded, empty⟩ := sound
    cases read.symm.trans empty
    have bound := (List.getElem?_eq_some_iff.1 empty).1
    exact ⟨rfl, ⟨decoded, by rw [found]; rfl, List.getElem?_set_self bound⟩, rfl,
      fun a h => .inl h,
      fun a c other h => (List.getElem?_set_ne fun same => other (congrArg some same)).trans h⟩
  | drop at? absent =>
    cases held.symm.trans at?
    obtain ⟨decoded, empty⟩ := sound
    have rejected := dispatch_of_refused table {} decoded
    rw [Dispatch.reject, absent] at rejected
    exact .of_same_memory rejected.1.symm rejected.2 nofun
  | startMarked at? found read salvaged =>
    cases held.symm.trans at?
    obtain ⟨decoded, _, written⟩ := sound
    cases read.symm.trans written
    have rejected := dispatch_of_refused table {} decoded
    simp only [Dispatch.reject, found, salvaged] at rejected
    exact .of_same_memory ⟨_, written, rejected.2, rejected.1⟩ rejected.2 fun a h => h
  | suspend | handOver => exact .of_same_memory sound (List.append_nil _).symm fun a h => h
  | complete read =>
    obtain ⟨c, written, performs⟩ := sound
    cases read.symm.trans written
    exact .of_same_memory ⟨_, performs, rfl⟩ (List.append_nil _).symm nofun
  | finish =>
    obtain ⟨c, performs, rfl⟩ := sound
    exact .of_same_memory performs.outcome.symm (List.append_nil _).symm nofun

namespace Phase

theorem Sound.address_lt (sound : p.Sound depth table raw m.contexts) {a : Nat}
    (h : p.address? = some a) : a < m.contexts.length := by
  have written : ∃ c, m.contexts[a]? = some c := by
    cases p with
    | resolved => cases h; exact ⟨_, sound.2.2⟩
    | rejected => cases h; exact ⟨_, sound.2⟩
    | marked => cases h; exact ⟨_, sound.2.2⟩
    | running => cases h; exact sound.imp fun c h => h.1
    | _ => cases h
  exact (List.getElem?_eq_some_iff.1 written.choose_spec).1

theorem Sound.mono {contexts contexts' : List (Context ρ)}
    (sound : p.Sound depth table raw contexts)
    (frame : ∀ a c, p.address? = some a → contexts[a]? = some c → contexts'[a]? = some c) :
    p.Sound depth table raw contexts' := by
  cases p with
  | resolved => exact ⟨sound.1, sound.2.1, frame _ _ rfl sound.2.2⟩
  | rejected => exact ⟨sound.1, frame _ _ rfl sound.2⟩
  | marked => exact ⟨sound.1, sound.2.1, frame _ _ rfl sound.2.2⟩
  | running =>
    obtain ⟨c, written, performs⟩ := sound
    exact ⟨c, frame _ _ rfl written, performs⟩
  | waiting | completed | finished => exact sound

end Phase

/-- Every dispatch is on its way, on the one table and in a context that no other has. -/
structure State.IsSound (s : State ρ) (depth dispatcher : Nat) (table : Table (Handler ρ))
    (raws : List Value) : Prop where
  held : s.memory.tables[dispatcher]? = some table
  raws : s.tasks.map (·.raw) = raws
  phases : ∀ task ∈ s.tasks, task.phase.Sound depth table task.raw s.memory.contexts
  apart : (s.tasks.filterMap (·.phase.address?)).Nodup
  trace : s.trace.Perm (s.tasks.flatMap fun task => task.phase.started depth table task.raw)

variable {s s' : State ρ} {raws : List Value}

private theorem exists_split {tasks : List (Task ρ)} {i : Nat} {task : Task ρ}
    (at? : tasks[i]? = some task) (next : Task ρ) :
    ∃ before after, tasks = before ++ task :: after ∧
      tasks.set i next = before ++ next :: after := by
  obtain ⟨bound, rfl⟩ := List.getElem?_eq_some_iff.1 at?
  obtain ⟨before, after, split, -, set⟩ := @List.exists_of_set _ i next tasks bound
  exact ⟨before, after, split, set⟩

private theorem nodup_filterMap_middle {α β : Type} {f : α → Option β} {before after : List α}
    {x : α} :
    ((before ++ x :: after).filterMap f).Nodup ↔
      (∀ b, f x = some b → ∀ y ∈ before ++ after, f y ≠ some b) ∧
        ((before ++ after).filterMap f).Nodup := by
  rw [(List.perm_middle.filterMap f).nodup_iff]
  cases h : f x with
  | none => simp [List.filterMap_cons_none h]
  | some b =>
    rw [List.filterMap_cons_some h, List.nodup_cons, List.mem_filterMap]
    simp

theorem isSound_start (r : Registry (Handler ρ)) (raws : List Value) :
    (State.start r raws).IsSound depth 0 r.table raws where
  held := rfl
  raws := by rw [State.start, List.map_map]; exact List.map_id raws
  phases := by
    intro task member
    obtain ⟨raw, -, rfl⟩ := List.mem_map.1 member
    trivial
  apart := by
    have none : (State.start r raws).tasks.filterMap (·.phase.address?) = [] := by
      simp [State.start, Phase.address?]
    exact none ▸ List.nodup_nil
  trace := by simp [State.start, Phase.started]

theorem isSound_of_advance {before after : List (Task ρ)} {task : Task ρ} {m' : Memory ρ}
    {phase : Phase ρ} {begun : List (Invocation ρ)} (sound : s.IsSound depth dispatcher table raws)
    (split : s.tasks = before ++ task :: after)
    (advance : Advance depth dispatcher manner task.raw s.memory task.phase m' phase begun) :
    State.IsSound ⟨m', before ++ { task with phase } :: after, s.trace ++ begun⟩ depth dispatcher
      table raws := by
  obtain ⟨held, same_raws, phases, apart, trace⟩ := sound
  rw [split] at same_raws phases apart trace
  obtain ⟨own, others⟩ := nodup_filterMap_middle.1 apart
  have keeps := keeps_of_advance held (phases task (by simp)) advance
  have sound_of_other : ∀ other ∈ before ++ after,
      other.phase.Sound depth table other.raw s.memory.contexts := by
    intro other member
    exact phases other (List.perm_middle.mem_iff.2 (List.mem_cons_of_mem _ member))
  refine ⟨keeps.tables ▸ held, by simpa using same_raws, ?_, ?_, ?_⟩
  · intro other member
    obtain rfl | member := List.mem_cons.1 (List.perm_middle.mem_iff.1 member)
    · exact keeps.sound
    · exact (sound_of_other other member).mono fun a c has =>
        keeps.frame a c fun has' => own a has' other member has
  · refine nodup_filterMap_middle.2 ⟨fun a has other member has' => ?_, others⟩
    obtain had | rfl := keeps.own a has
    · exact own a had other member has'
    · exact absurd ((sound_of_other other member).address_lt has') (Nat.lt_irrefl _)
  · rw [List.flatMap_append, List.flatMap_cons] at trace ⊢
    -- what has begun stands last in the trace, but among the tasks at the place of its own
    rw [keeps.begun]
    refine (trace.append_right begun).trans ?_
    rw [List.append_assoc, List.append_assoc, List.append_assoc]
    exact (List.perm_append_comm.append_left _).append_left _

theorem isSound_of_step (sound : s.IsSound depth dispatcher table raws)
    (step : Step depth dispatcher manner s s') : s'.IsSound depth dispatcher table raws := by
  cases step with
  | registry held call =>
    have bound := (List.getElem?_eq_some_iff.1 sound.held).1
    exact { sound with held := (List.getElem?_append_left bound).trans sound.held }
  | dispatch at? advance =>
    obtain ⟨before, after, split, set⟩ := exists_split at? _
    rw [set]
    exact isSound_of_advance sound split advance

theorem isSound_of_run (sound : s.IsSound depth dispatcher table raws)
    (run : Relation.ReflTransGen (Step depth dispatcher manner) s s') :
    s'.IsSound depth dispatcher table raws := by
  induction run with
  | refl => exact sound
  | tail _ step ih => exact isSound_of_step ih step

theorem left_begin_lt (run : Run ρ) (m : Manner) : (run.begin m).left < 5 := by
  cases m <;> simp [Run.begin, Manner.places]

theorem exists_advance (manner : Handler ρ → Manner) (held : m.tables[dispatcher]? = some table)
    (sound : p.Sound depth table raw m.contexts) (unfinished : p.outcome? = none) :
    ∃ m' p' begun, Advance depth dispatcher manner raw m p m' p' begun ∧ p'.left < p.left := by
  cases p with
  | waiting =>
    cases decoded : Envelope.decode depth raw with
    | ok e => exact ⟨_, _, _, .resolve held decoded, by simp⟩
    | error stop =>
      cases stop with
      | refused cause => exact ⟨_, _, _, .reject decoded, by simp⟩
      | halted cause => exact ⟨_, _, _, .halt decoded, by simp⟩
  | resolved e address index =>
    obtain ⟨_, _, empty⟩ := sound
    cases index with
    | some index =>
      cases found : table.handlerAt? index with
      | some handler =>
        exact ⟨_, _, _, .start held found empty, left_begin_lt _ _⟩
      | none => exact ⟨_, _, _, .misplaced held found, by simp⟩
    | none =>
      cases found : table.catchAll with
      | some handler =>
        exact ⟨_, _, _, .startCatchAll held found empty, left_begin_lt _ _⟩
      | none => exact ⟨_, _, _, .leave held found, by simp⟩
  | rejected cause address =>
    cases found : table.catchAll with
    | some handler => exact ⟨_, _, _, .mark held found sound.2, by simp⟩
    | none => exact ⟨_, _, _, .drop held found, by simp⟩
  | marked cause address =>
    obtain ⟨decoded, isSome, written⟩ := sound
    obtain ⟨handler, found⟩ := Option.isSome_iff_exists.1 isSome
    have salvaged := Envelope.salvage_of_refused decoded
    exact ⟨_, _, _, .startMarked held found written salvaged, left_begin_lt _ _⟩
  | running run place later =>
    obtain ⟨c, written, _⟩ := sound
    cases later with
    | nil => exact ⟨_, _, _, .complete written, by simp⟩
    | cons next later => exact ⟨_, _, _, .handOver, by simp⟩
  | completed run reply => exact ⟨_, _, _, .finish, by simp⟩
  | finished outcome => cases unfinished

def stepsLeft : List (Task ρ) → Nat
  | [] => 0
  | task :: tasks => task.phase.left + stepsLeft tasks

@[simp] theorem stepsLeft_append (before after : List (Task ρ)) :
    stepsLeft (before ++ after) = stepsLeft before + stepsLeft after := by
  induction before with
  | nil => simp [stepsLeft]
  | cons task before ih => rw [List.cons_append, stepsLeft, stepsLeft, ih, Nat.add_assoc]

theorem exists_step (manner : Handler ρ → Manner) (sound : s.IsSound depth dispatcher table raws)
    (unfinished : ¬ s.IsDone) :
    ∃ s', Step depth dispatcher manner s s' ∧ stepsLeft s'.tasks < stepsLeft s.tasks := by
  obtain ⟨task, member, none⟩ : ∃ task ∈ s.tasks, task.phase.outcome? = none := by
    simpa [State.IsDone] using unfinished
  obtain ⟨i, at?⟩ := List.getElem?_of_mem member
  obtain ⟨m', p', begun, advance, less⟩ :=
    exists_advance manner sound.held (sound.phases task member) none
  refine ⟨_, .dispatch at? advance, ?_⟩
  obtain ⟨before, after, split, set⟩ := exists_split at? { task with phase := p' }
  rw [set, split, stepsLeft_append, stepsLeft_append, stepsLeft, stepsLeft]
  exact Nat.add_lt_add_left (Nat.add_lt_add_right less _) _

theorem exists_run_to_done (manner : Handler ρ → Manner)
    (sound : s.IsSound depth dispatcher table raws) :
    ∃ s', Relation.ReflTransGen (Step depth dispatcher manner) s s' ∧ s'.IsDone := by
  induction bound : stepsLeft s.tasks using Nat.strongRecOn generalizing s with
  | ind n ih =>
    subst bound
    by_cases isDone : s.IsDone
    · exact ⟨s, .refl, isDone⟩
    · obtain ⟨next, step, less⟩ := exists_step manner sound isDone
      obtain ⟨s', run, isDone'⟩ := ih _ less (isSound_of_step sound step) rfl
      exact ⟨s', .head step run, isDone'⟩

theorem started_sublist (table : Table (Handler ρ)) (raw : Value) (p : Phase ρ) :
    (p.started depth table raw).Sublist (Dispatch.dispatch depth table raw {}).invocations := by
  cases p with
  | waiting | resolved | rejected | marked => exact List.nil_sublist _
  | running | completed | finished => exact List.Sublist.refl _

theorem finished_of_outcome?_eq_some (sound : p.Sound depth table raw m.contexts)
    {outcome : Except DispatchError DispatchResult} (h : p.outcome? = some outcome) :
    outcome = (Dispatch.dispatch depth table raw {}).outcome ∧
      p.started depth table raw = (Dispatch.dispatch depth table raw {}).invocations := by
  cases p with
  | finished => cases h; exact ⟨sound, rfl⟩
  | _ => cases h

/-- However the steps of the dispatches and calls of the registry follow each other: a message has
the outcome that it has alone, the handlers that start are those of one message after the other, all
of them when all messages have an outcome, and it can always come to that. -/
theorem dispatches_isolated {r : Registry (Handler ρ)} {raws : List Value}
    (run : Relation.ReflTransGen (Step depth 0 manner) (State.start r raws) s) :
    let deliveries := Dispatch.gather depth r.table raws
    (∀ (i : Nat) outcome, s.outcomes[i]? = some (some outcome) →
        (deliveries.map (·.outcome))[i]? = some outcome) ∧
      s.trace.Subperm (deliveries.flatMap (·.invocations)) ∧
      (s.IsDone → s.outcomes = deliveries.map (some ·.outcome) ∧
        s.trace.Perm (deliveries.flatMap (·.invocations))) ∧
      ∃ s', Relation.ReflTransGen (Step depth 0 manner) s s' ∧ s'.IsDone := by
  intro deliveries
  have sound := isSound_of_run (isSound_start r raws) run
  have deliveries_eq : deliveries
      = s.tasks.map fun task => Dispatch.dispatch depth r.table task.raw {} := by
    rw [show deliveries = raws.map _ from rfl, ← sound.raws, List.map_map]
    rfl
  refine ⟨?_, ?_, ?_, exists_run_to_done manner sound⟩
  · intro i outcome h
    rw [State.outcomes, List.getElem?_map, Option.map_eq_some_iff] at h
    obtain ⟨task, at?, ended⟩ := h
    have phase := sound.phases task (List.mem_of_getElem? at?)
    rw [deliveries_eq, List.map_map, List.getElem?_map, at?,
      (finished_of_outcome?_eq_some phase ended).1]
    rfl
  · rw [deliveries_eq, List.flatMap_map]
    exact sound.trace.subperm.trans
      (List.Sublist.flatMap_right _ fun task _ =>
        started_sublist r.table task.raw task.phase).subperm
  · intro isDone
    have ended : ∀ task ∈ s.tasks,
        task.phase.outcome? = some (Dispatch.dispatch depth r.table task.raw {}).outcome ∧
          task.phase.started depth r.table task.raw
            = (Dispatch.dispatch depth r.table task.raw {}).invocations := by
      intro task member
      obtain ⟨outcome, ended⟩ := Option.isSome_iff_exists.1 (isDone task member)
      obtain ⟨rfl, started⟩ := finished_of_outcome?_eq_some (sound.phases task member) ended
      exact ⟨ended, started⟩
    rw [deliveries_eq, List.map_map, List.flatMap_map]
    refine ⟨List.map_congr_left fun task member => (ended task member).1, ?_⟩
    rw [← List.flatMap_congr fun task member => (ended task member).2]
    exact sound.trace

theorem dispatches_isolated_two_messages :
    let typed : Handler Unit := ⟨"typed", fun _ _ => .ok (.value .null)⟩
    let rest : Handler Unit := ⟨"rest", fun _ _ => .error ⟨"ValueError", "no"⟩⟩
    let manner : Handler Unit → Manner := fun h => if h.name = "typed" then .awaitable else .async
    let leaf : Leaf := ⟨["attributes", "type"], .str "a"⟩
    let r : Registry (Handler Unit) := ⟨.opened, 1, ⟨[⟨0, [leaf], typed⟩], some rest⟩⟩
    let raw := Value.ofFields [("subscription", .str "s"), ("message", .ofFields
      [("messageId", .str "1"), ("attributes", .ofFields [("type", .str "a")])])]
    ∃ s, Relation.ReflTransGen (Step 100 0 manner) (State.start r [raw, .null]) s ∧
      s.memory.counter = 2 ∧ s.trace.map (·.handler.name) = ["rest", "typed"] ∧
      s.outcomes = (Dispatch.gather 100 r.table [raw, .null]).map (some ·.outcome) := by
  intro typed rest manner leaf r raw
  let late := Value.ofFields [("attributes", .ofFields [("type", .str "a")])]
  obtain ⟨e, decoded⟩ : ∃ e, Envelope.decode 100 raw = .ok e := ⟨_, rfl⟩
  have resolved : r.table.resolve? e = some 0 := by
    cases decoded
    decide +kernel
  obtain ⟨cause, broken⟩ : ∃ cause, Envelope.decode 100 .null = .error (.refused cause) := ⟨_, rfl⟩
  have resolve (m : Memory Unit) (at? : m.tables[0]? = some r.table) :
      Advance 100 0 manner raw m .waiting m.allocate
        (.resolved e m.contexts.length (some 0)) [] := by
    rw [← resolved]
    exact .resolve at? decoded
  obtain ⟨s, run, counter, trace, isDone⟩ :
      ∃ s, Relation.ReflTransGen (Step 100 0 manner) (State.start r [raw, .null]) s ∧
        s.memory.counter = 2 ∧ s.trace.map (·.handler.name) = ["rest", "typed"] ∧
        s.tasks.all (·.phase.outcome?.isSome) :=
    ⟨_, .head (.dispatch (i := 0) rfl (resolve _ rfl)) <|
      .head (.dispatch (i := 1) rfl (.reject broken)) <|
      .head (.registry rfl (.register (.handler "late" rest) late)) <|
      .head (.dispatch (i := 1) rfl (.mark rfl rfl rfl)) <|
      .head (.dispatch (i := 1) rfl (.startMarked rfl rfl rfl rfl)) <|
      .head (.dispatch (i := 0) rfl (.start rfl rfl rfl)) <|
      .head (.dispatch (i := 0) rfl .handOver) <|
      .head (.dispatch (i := 1) rfl (.complete rfl)) <|
      .head (.dispatch (i := 1) rfl .finish) <|
      .head (.dispatch (i := 0) rfl (.complete rfl)) <|
      .single (.dispatch (i := 0) rfl .finish),
      rfl, rfl, rfl⟩
  obtain ⟨-, -, complete, -⟩ := dispatches_isolated run
  exact ⟨s, run, counter, trace, (complete (List.all_eq_true.1 isDone)).1⟩

end PushDispatch.Concurrent
