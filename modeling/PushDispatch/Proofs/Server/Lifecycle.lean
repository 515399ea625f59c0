import PushDispatch.Proofs.Registry.Failure
import PushDispatch.Proofs.Server.Independence

/-! The life of a server, over any calls. While no handler is accepted it cannot be set up, and
trying to changes nothing. Once it is set up it stays so: the registry is frozen, and every push is
answered from the handlers that were accepted before. -/
namespace PushDispatch

theorem ServerOptions.healthcheckPath_literal {o : ServerOptions}
    (literal : '\x7b' ∉ o.path.toList) : '\x7b' ∉ o.healthcheckPath.toList := by
  unfold healthcheckPath
  split <;> simp [String.toList_append, literal]

namespace Registry

variable {η : Type} {r : Registry η}

theorem isEmpty_of_freeze (stocked : r.state = .frozen → r.table.isEmpty = false) {table : Table η}
    (frozen : r.freeze.outcome = .ok table) : r.table.isEmpty = false := by
  have did := r.freeze_freezes
  rw [frozen] at did
  generalize r.freeze.registry = r' at did
  cases did with
  | again state => exact stocked state
  | ended _ some => exact some

@[simp] theorem state_offer (r : Registry η) (o : Offer η) : (r.offer o).state = r.state := by
  cases state : r.state with
  | frozen => rw [offer_of_frozen state, state]
  | opened =>
    rw [offer_of_opened state]
    cases o.brings? with
    | none => exact state
    | some a => exact (r.state_enter a).trans state

end Registry

namespace Server

namespace Call

def isSettingUp : Call → Bool
  | .setUp => true
  | _ => false

def IsAnnounceable : Call → Prop
  | .register o => Condition.IsAnnounceable o.condition
  | _ => True

end Call

def events (s : Server) : Call → List (Registry.Event (Handler Request))
  | .register o =>
    [.register o.candidate o.condition (s.register o.candidate o.condition).outcome]
  | .setUp => if s.site.isNone then [.freeze s.registry.freeze.outcome] else []
  | .bind .. | .decorate .. | .request .. => []

def history (s : Server) : List Call → List (Registry.Event (Handler Request))
  | [] => []
  | call :: calls => s.events call ++ (s.perform call).history calls

def hasSetUp (s : Server) : List Call → Bool
  | [] => false
  | call :: calls => (call.isSettingUp && s.setUp.outcome.isOk) || (s.perform call).hasSetUp calls

variable {s s' : Server} {call : Call} {site : Site}
  {happened : List (Registry.Event (Handler Request))}

@[simp] theorem register_outcome (s : Server) (candidate : Candidate (Handler Request))
    (condition : Value) : (s.register candidate condition).outcome
      = (s.registry.register candidate condition).outcome := rfl

@[simp] theorem register_registry (s : Server) (candidate : Candidate (Handler Request))
    (condition : Value) : (s.register candidate condition).server.registry
      = (s.registry.register candidate condition).registry := rfl

/-- A server that answers from a site, and takes no handler any more. -/
structure ServesFrom (s : Server) (site : Site) : Prop where
  up : s.site = some site
  state : s.registry.state = .frozen
  table : s.registry.table = site.table
  again : s.setUp = ⟨s, .ok site, []⟩
  refuses : ∀ candidate condition, s.register candidate condition = ⟨s, .error .frozen, []⟩
  answers : ∀ r now, s.request r now = some (s.respond site r now)
  dispatches : ∀ r now raw, site.route r = .ok .push →
    s.options.authorizes s.room.token r now = .ok true →
    Exchange.payload s.room.body r.body = .ok raw →
    s.respond site r now = .ofDelivery s.options.path s.room.answer
      (Dispatch.dispatch s.room.data site.table raw (s.context r))

theorem IsSound.servesFrom (h : s.IsSound) (up : s.site = some site) : s.ServesFrom site := by
  obtain ⟨table, state⟩ := h.table site up
  have again : s.setUp = ⟨s, .ok site, []⟩ := by
    unfold setUp
    rw [up]
  refine ⟨up, state, table.symm, again, ?_, request_of_site up, ?_⟩
  · intro candidate condition
    unfold register Registry.register
    rw [if_pos state]
    rfl
  · intro r now raw route authorized read
    unfold respond receive dispatch
    simp only [route, authorized, read]

theorem ServesFrom.registry_perform (h : s.ServesFrom site) (call : Call) :
    (s.perform call).registry = s.registry := by
  have did := s.perform_performs call
  generalize s.perform call = s' at did ⊢
  cases did with
  | register o => exact Registry.offer_of_frozen h.state o
  | bind | decorate | request => rfl
  | setUp did =>
    cases did with
    | again | unready => rfl
    | unplaced down | ready down => cases down.symm.trans h.up

theorem servesFrom_after (h : s.IsSound) (up : s.site = some site) (more : List Call) :
    (s.after more).ServesFrom site ∧ (s.after more).registry = s.registry := by
  refine ⟨(h.after more).servesFrom (site_after up more), ?_⟩
  induction more generalizing s with
  | nil => rfl
  | cons call more ih =>
    have did := s.perform_performs call
    rw [after, ih (h.performs did) (did.site_eq up), (h.servesFrom up).registry_perform]

theorem isSome_site_setUp (s : Server) :
    s.setUp.server.site.isSome = (s.site.isSome || s.setUp.outcome.isOk) := by
  have did := s.setUp_setsUp
  generalize s.setUp.server = s', s.setUp.outcome = outcome at did ⊢
  cases did with
  | again up => rw [up]; rfl
  | unready down | unplaced down | ready down => rw [down]; rfl

theorem isSome_site_perform (s : Server) (call : Call) :
    (s.perform call).site.isSome
      = (s.site.isSome || (call.isSettingUp && s.setUp.outcome.isOk)) := by
  cases call with
  | register o => exact (Bool.or_false _).symm
  | bind values keywords =>
    obtain ⟨change, bound⟩ := perform_bind values keywords
    rw [bound]
    exact (Bool.or_false _).symm
  | decorate name value =>
    obtain ⟨change, decorated⟩ := perform_decorate name value
    rw [decorated]
    exact (Bool.or_false _).symm
  | setUp => exact s.isSome_site_setUp
  | request r now => exact (Bool.or_false _).symm

theorem isSome_site_after (s : Server) (calls : List Call) :
    (s.after calls).site.isSome = (s.site.isSome || s.hasSetUp calls) := by
  induction calls generalizing s with
  | nil => exact (Bool.or_false _).symm
  | cons call calls ih => rw [after, ih, isSome_site_perform, hasSetUp, Bool.or_assoc]

/-- The invariant that every call keeps, of a server and what has happened. -/
structure InStep (s : Server) (happened : List (Registry.Event (Handler Request))) : Prop where
  sound : s.IsSound
  follows : s.registry.Follows happened
  stocked : s.registry.state = .frozen → s.registry.table.isEmpty = false
  placed : ∀ site, s.site = some site → s.places = .ok (site.healthcheck, site.push)

theorem inStep_new (name : String) (options : ServerOptions) (room : Room) :
    InStep { name, options, room } [] :=
  ⟨isSound_new name options room, Registry.follows_nil, nofun, nofun⟩

theorem events_setUp_of_down (down : s.site = none) :
    s.events .setUp = [.freeze s.registry.freeze.outcome] := by
  unfold events
  rw [down]
  rfl

theorem InStep.setsUp (h : s.InStep happened) {outcome : Except SetUpError Site}
    (did : SetsUp s s' outcome) : s'.InStep (happened ++ s.events .setUp) := by
  have sound := h.sound.setsUp did
  cases did with
  | again up =>
    have silent : s.events .setUp = [] := by
      unfold events
      rw [up]
      rfl
    rw [silent, List.append_nil]
    exact h
  | unready down refused =>
    rw [events_setUp_of_down down, refused]
    exact ⟨sound, h.follows.idle rfl rfl rfl (by simp [Registry.Event.isFreezing]), h.stocked,
      h.placed⟩
  | unplaced down frozen =>
    have some := Registry.isEmpty_of_freeze h.stocked frozen
    rw [events_setUp_of_down down, frozen]
    exact ⟨sound, h.follows.idle rfl rfl rfl (by simp [Registry.Event.isFreezing]), fun _ => some,
      h.placed⟩
  | ready down frozen places =>
    have some := Registry.isEmpty_of_freeze h.stocked frozen
    rw [events_setUp_of_down down, frozen]
    refine ⟨sound, h.follows.idle rfl rfl rfl (by simp [Registry.Event.isFreezing]), fun _ => some,
      ?_⟩
    intro site up
    cases up
    exact places

theorem InStep.performs (h : s.InStep happened) (announceable : call.IsAnnounceable)
    (did : Performs s call s') : s'.InStep (happened ++ s.events call) := by
  have sound := h.sound.performs did
  cases did with
  | register o =>
    refine ⟨sound, h.follows.register_of_announceable announceable, ?_, h.placed⟩
    intro frozen
    have before : s.registry.state = .frozen := (s.registry.state_offer o).symm.trans frozen
    have same := Registry.offer_of_frozen before o
    show (s.registry.offer o).table.isEmpty = false
    rw [same]
    exact h.stocked before
  | bind | decorate | request =>
    rw [events, List.append_nil]
    exact ⟨sound, h.follows, h.stocked, h.placed⟩
  | setUp did => exact h.setsUp did

theorem InStep.after (h : s.InStep happened) {calls : List Call}
    (announceable : ∀ call ∈ calls, call.IsAnnounceable) :
    (s.after calls).InStep (happened ++ s.history calls) := by
  induction calls generalizing s happened with
  | nil =>
    rw [history, List.append_nil]
    exact h
  | cons call calls ih =>
    have step := h.performs (announceable call List.mem_cons_self) (s.perform_performs call)
    have rest := ih step fun c mem => announceable c (List.mem_cons_of_mem call mem)
    rwa [List.append_assoc] at rest

theorem InStep.site_eq (h : s.InStep happened) (literal : '\x7b' ∉ s.options.path.toList)
    (up : s.site = some site) :
    site = ⟨Registry.tableOf happened, s.options.healthcheckPath.toList.map .literal,
      s.options.path.toList.map .literal⟩ := by
  have placed := h.placed site up
  have named : s.name ≠ "" := by
    intro unnamed
    unfold places build at placed
    rw [if_pos unnamed] at placed
    cases placed
  rw [places_of_literal named (ServerOptions.healthcheckPath_literal literal) literal] at placed
  have table := (h.sound.table site up).1.trans h.follows.table
  obtain ⟨found, healthcheck, push⟩ := site
  cases placed
  rw [← table]

theorem InStep.exists_setUp (h : s.InStep happened) (literal : '\x7b' ∉ s.options.path.toList)
    (named : s.name ≠ "") (someone : Registry.accepted happened ≠ []) :
    ∃ site, s.setUp.outcome = .ok site := by
  cases up : s.site with
  | some site =>
    have again := (h.sound.servesFrom up).again
    exact ⟨site, by rw [again]⟩
  | none =>
    have frozen : s.registry.freeze.outcome = .ok s.registry.table := by
      rw [h.follows.outcome_of_freezes s.registry.freeze_freezes, Registry.freezeOutcome,
        if_neg fun none => someone none.2, h.follows.table]
    exact ⟨_, setUp_of_literal up frozen named (ServerOptions.healthcheckPath_literal literal)
      literal⟩

structure IsWaiting (s : Server) : Prop where
  down : s.site = none
  state : s.registry.state = .opened
  refused : s.setUp = ⟨s, .error (.freeze .noHandlers), []⟩
  unanswered : ∀ r now, s.request r now = none
  accepts : ∀ label handler condition entries, Condition.check condition = .ok entries →
    Condition.areNameable entries → (∀ leaf ∈ Condition.leaves entries, leaf.value.isWritable) →
    let step := s.register (.handler label handler) condition
    step.outcome = .ok (if (Condition.leaves entries).isEmpty then none else some 0) ∧
      (s.name ≠ "" → ∃ site, step.server.setUp.outcome = .ok site)

theorem setUp_of_bare (down : s.site = none) (opened : s.registry.state = .opened)
    (bare : s.registry.table.isEmpty) : s.setUp = ⟨s, .error (.freeze .noHandlers), []⟩ := by
  have freeze : s.registry.freeze = s.registry.refuse .noHandlers := by
    unfold Registry.freeze
    simp [opened, bare, RegistryState.canBecome]
  obtain ⟨name, options, room, registry, bindings, decorations, site⟩ := s
  cases down
  unfold setUp
  simp only [freeze]
  rfl

theorem InStep.isWaiting (h : s.InStep happened) (literal : '\x7b' ∉ s.options.path.toList)
    (nobody : Registry.accepted happened = []) : s.IsWaiting := by
  have bare : s.registry.table.isEmpty := h.follows.isEmpty_iff.2 nobody
  have opened : s.registry.state = .opened := by
    cases state : s.registry.state with
    | opened => rfl
    | frozen => cases bare.symm.trans (h.stocked state)
  have down : s.site = none := by
    cases up : s.site with
    | none => rfl
    | some site => cases opened.symm.trans (h.sound.table site up).2
  have refused := setUp_of_bare down opened bare
  refine ⟨down, opened, refused, ?_, ?_⟩
  · intro r now
    rw [request, down, Option.map_none]
  · intro label handler condition entries checked nameable announced step
    obtain ⟨noRule, free⟩ := Bool.and_eq_true_iff.1 bare
    have counter : s.registry.counter = 0 := by
      rw [h.sound.numbered.counter, List.isEmpty_iff.1 noRule]
      rfl
    have taken := Registry.register_outcome_of_free label handler opened
      (Option.isNone_iff_eq_none.1 free) checked nameable announced
    rw [counter] at taken
    refine ⟨taken, fun named => ?_⟩
    let offer : Call := .register ⟨.handler label handler, condition⟩
    have announceable : offer.IsAnnounceable :=
      Condition.isAnnounceable_of_check checked announced
    refine (h.performs announceable (.register _)).exists_setUp literal named ?_
    unfold events
    rw [Registry.accepted_concat, register_outcome, taken]
    exact List.append_ne_nil_of_right_ne_nil _ (List.cons_ne_nil _ _)

/-- Where a server stands after some calls. It is set up if setting up has succeeded. Without an
accepted handler it waits for one, and with one it can be set up. Once it is set up it serves from
the handlers that were accepted, whatever comes. -/
structure Lifecycle (start : Server) (calls : List Call) : Prop where
  isSome_site : (start.after calls).site.isSome = start.hasSetUp calls
  waiting : Registry.accepted (start.history calls) = [] → (start.after calls).IsWaiting
  ready : Registry.accepted (start.history calls) ≠ [] → start.name ≠ "" →
    ∃ site, (start.after calls).setUp.outcome = .ok site ∧
      (start.after calls).setUp.server.site = some site
  serving : ∀ site, (start.after calls).site = some site →
    site = ⟨Registry.tableOf (start.history calls),
      start.options.healthcheckPath.toList.map .literal, start.options.path.toList.map .literal⟩ ∧
    ∀ more, ((start.after calls).after more).ServesFrom site ∧
      ((start.after calls).after more).registry = (start.after calls).registry

/-- Every server whose path is literal goes this way over any calls, as long as the conditions that
come with handlers can be announced. -/
theorem lifecycle_of_literal (name : String) (options : ServerOptions) (room : Room)
    (calls : List Call) (literal : '\x7b' ∉ options.path.toList)
    (announceable : ∀ call ∈ calls, call.IsAnnounceable) :
    Lifecycle { name, options, room } calls := by
  have inStep := (inStep_new name options room).after announceable
  rw [List.nil_append] at inStep
  obtain ⟨sameName, sameOptions, -⟩ := sameFrame_after { name, options, room } calls
  have literal' : '\x7b' ∉ (after { name, options, room } calls).options.path.toList := by
    rwa [sameOptions]
  constructor
  · exact isSome_site_after _ calls
  · exact inStep.isWaiting literal'
  · intro someone named
    obtain ⟨site, ready⟩ := inStep.exists_setUp literal' (sameName ▸ named) someone
    exact ⟨site, ready, site_of_setUp ready⟩
  · intro site up
    have site_eq := inStep.site_eq literal' up
    rw [sameOptions] at site_eq
    exact ⟨site_eq, servesFrom_after inStep.sound up⟩

theorem lifecycle_of_literal_late_handler :
    let echo : Handler Request := ⟨"echo", fun _ c => .ok (.value (.dict c.bindings))⟩
    let options : ServerOptions := ⟨"/push", "0.0.0.0", 8080, "development", none⟩
    let room : Room := ⟨900, 900, 900, 900⟩
    let typed := Value.ofFields [("attributes", .ofFields [("type", .str "a")])]
    let calls : List Call := [.setUp, .bind none [("x", .int 1)],
      .register ⟨.handler "echo" echo, typed⟩, .setUp]
    let more : List Call := [.register ⟨.handler "late" echo, .null⟩, .bind none [("x", .int 2)]]
    let later := (after { name := "f", options, room } calls).after more
    '\x7b' ∉ options.path.toList ∧ (∀ call ∈ calls, call.IsAnnounceable) ∧
      hasSetUp { name := "f", options, room } calls ∧
      ∃ site, (after { name := "f", options, room } calls).site = some site ∧
        site.table.size = 1 ∧ site.table.catchAll.isNone ∧ later.setUp = ⟨later, .ok site, []⟩ ∧
        later.register (.handler "late" echo) .null = ⟨later, .error .frozen, []⟩ := by
  intro echo options room typed calls more later
  have literal : '\x7b' ∉ options.path.toList := by decide
  have conditional : Condition.IsAnnounceable typed :=
    Condition.isAnnounceable_of_check rfl (List.all_eq_true.1 rfl)
  have announceable : ∀ call ∈ calls, call.IsAnnounceable := by
    simp [calls, Call.IsAnnounceable, conditional]
  have setUp : hasSetUp { name := "f", options, room } calls := by decide +kernel
  have life := lifecycle_of_literal "f" options room calls literal announceable
  obtain ⟨site, up⟩ := Option.isSome_iff_exists.1 (life.isSome_site.trans setUp)
  obtain ⟨site_eq, serving⟩ := life.serving site up
  obtain ⟨serves, -⟩ := serving more
  refine ⟨literal, announceable, setUp, site, up, ?_, ?_, serves.again, serves.refuses _ _⟩
  · rw [site_eq]
    rfl
  · rw [site_eq]
    rfl

/-- Without a name a server cannot be set up though it has a handler. -/
theorem unnamed_server_stays_down :
    let idle : Handler Request := ⟨"idle", fun _ _ => .ok (.value .null)⟩
    let options : ServerOptions := ⟨"/", "0.0.0.0", 8080, "development", none⟩
    let unnamed := after { name := "", options, room := ⟨900, 900, 900, 900⟩ } [.setUp]
    let offered := unnamed.register (.handler "idle" idle) .null
    '\x7b' ∉ options.path.toList ∧ unnamed.setUp.outcome = .error (.freeze .noHandlers) ∧
      offered.outcome = .ok none ∧ offered.server.setUp.outcome = .error .untitled :=
  ⟨by decide, rfl, rfl, rfl⟩

/-- A handler whose condition cannot be announced is refused, and yet the server can be set up. -/
theorem refused_handler_allows_setUp :
    let idle : Handler Request := ⟨"idle", fun _ _ => .ok (.value .null)⟩
    let options : ServerOptions := ⟨"/", "0.0.0.0", 8080, "development", none⟩
    let long := Value.int (Nat.pow 10 Numeral.maxDigits : Nat)
    let condition := Value.ofFields [("data", .ofFields [("n", long)])]
    let refused := register { name := "f", options, room := ⟨900, 900, 900, 900⟩ }
      (.handler "idle" idle) condition
    refused.outcome = .error .unwritable ∧ ∃ site, refused.server.setUp.outcome = .ok site := by
  have long := Registry.not_isWritable_pow_maxDigits
  generalize ((Nat.pow 10 Numeral.maxDigits : Nat) : Int) = n at long ⊢
  intro idle options value condition refused
  obtain ⟨failed, kept⟩ := Registry.register_of_long long "idle" idle
  have literal : '\x7b' ∉ options.path.toList := by decide
  refine ⟨(register_outcome _ _ _).trans failed, ?_⟩
  have registry : refused.server.registry = _ := (register_registry _ _ _).trans kept
  have frozen : refused.server.registry.freeze.outcome = .ok refused.server.registry.table := by
    rw [registry]
    rfl
  exact ⟨_, setUp_of_literal rfl frozen (show "f" ≠ "" by decide)
    (ServerOptions.healthcheckPath_literal literal) literal⟩

end Server
end PushDispatch
