import PushDispatch.Proofs.Dispatch.Selection
import PushDispatch.Proofs.Json.Detection
import PushDispatch.Proofs.Json.Nesting
import PushDispatch.Proofs.Server.Gate
import PushDispatch.Proofs.Server.Runs

/-! A push is answered as if it were the first: whatever was asked before it, the exchange is that
of a server just set up which was offered the same handlers and shares the same values. Its handler
sees these values, the request, and what is wrong with this one body. A body that is no JSON counts
as null; one that is nested too deep does not, it fails the push. -/
namespace PushDispatch

namespace Server

namespace Call

def isOffer : Call → Bool
  | .register _ => true
  | _ => false

def isSharing : Call → Bool
  | .bind .. | .decorate .. => true
  | _ => false

end Call

structure SharesWith (s t : Server) : Prop where
  bindings : s.bindings = t.bindings
  decorations : s.decorations = t.decorations

variable {s s' t : Server} {call : Call}

theorem Performs.sharesWith (did : Performs s call s') (other : call.isSharing = false) :
    s'.SharesWith s := by
  cases did with
  | setUp did => cases did <;> exact ⟨rfl, rfl⟩
  | register | request => exact ⟨rfl, rfl⟩
  | bind | decorate => cases other

theorem SharesWith.trans {u : Server} (h : s.SharesWith t) (h' : t.SharesWith u) : s.SharesWith u :=
  ⟨h.bindings.trans h'.bindings, h.decorations.trans h'.decorations⟩

theorem SharesWith.perform (h : s.SharesWith t) (sharing : call.isSharing) :
    (s.perform call).SharesWith (t.perform call) := by
  cases call with
  | bind values keywords =>
    obtain ⟨change, bound⟩ := perform_bind values keywords
    rw [bound, bound, h.bindings]
    exact ⟨rfl, h.decorations⟩
  | decorate name value =>
    obtain ⟨change, decorated⟩ := perform_decorate name value
    rw [decorated, decorated, h.decorations]
    exact ⟨h.bindings, rfl⟩
  | register | setUp | request => cases sharing

/-- Nothing but sharing decides on the shared values. -/
theorem SharesWith.after_filter (h : s.SharesWith t) (calls : List Call) :
    (s.after calls).SharesWith (t.after (calls.filter (·.isSharing))) := by
  induction calls generalizing s t with
  | nil => exact h
  | cons call calls ih =>
    cases sharing : call.isSharing with
    | true =>
      rw [List.filter_cons_of_pos (by simpa using sharing)]
      exact ih (h.perform sharing)
    | false =>
      rw [List.filter_cons_of_neg (by simp [sharing])]
      exact ih (((s.perform_performs call).sharesWith sharing).trans h)

theorem sharesWith_after_offers (s : Server) (calls : List Call) :
    (s.after (calls.filter (·.isOffer))).SharesWith s := by
  have none : (calls.filter (·.isOffer)).filter (·.isSharing) = [] := by
    rw [List.filter_eq_nil_iff]
    intro call offered
    have offer := (List.mem_filter.1 offered).2
    cases call <;> simp_all [Call.isOffer, Call.isSharing]
  have same := SharesWith.after_filter (s := s) ⟨rfl, rfl⟩ (calls.filter (·.isOffer))
  rwa [none] at same

theorem Performs.registry_of_down (did : Performs s call s') (other : call.isOffer = false)
    {p : PathTemplate × PathTemplate} (placed : s.places = .ok p) (down : s.site = none)
    (still : s'.site = none) : s'.registry = s.registry := by
  cases did with
  | setUp did =>
    cases did with
    | again up => cases down.symm.trans up
    | unready => rfl
    | unplaced _ _ unplaced => cases placed.symm.trans unplaced
    | ready => cases still
  | bind | decorate | request => rfl
  | register => cases other

/-- As long as a server is not set up, nothing but offers decides on the registry. -/
theorem registry_after_filter (same : s.registry = t.registry) {p : PathTemplate × PathTemplate}
    (placed : s.places = .ok p) (calls : List Call) (down : (s.after calls).site = none) :
    (s.after calls).registry = (t.after (calls.filter (·.isOffer))).registry := by
  induction calls generalizing s t with
  | nil => exact same
  | cons call calls ih =>
    have did := s.perform_performs call
    have before : s.site = none := by
      cases up : s.site with
      | none => rfl
      | some site => cases (site_after up (call :: calls)).symm.trans down
    have after : (s.perform call).site = none := by
      cases up : (s.perform call).site with
      | none => rfl
      | some site => cases (site_after up calls).symm.trans down
    have placed' : (s.perform call).places = .ok p :=
      (places_congr did.sameFrame.name did.sameFrame.options).trans placed
    cases offer : call.isOffer with
    | true =>
      rw [List.filter_cons_of_pos (by simpa using offer)]
      apply ih _ placed' down
      cases call with
      | register o => exact congrArg (·.offer o) same
      | bind | decorate | setUp | request => cases offer
    | false =>
      rw [List.filter_cons_of_neg (by simp [offer])]
      exact ih ((did.registry_of_down offer placed before after).trans same) placed' down

@[simp] theorem site_after_offers (s : Server) (calls : List Call) :
    (s.after (calls.filter (·.isOffer))).site = s.site := by
  induction calls generalizing s with
  | nil => rfl
  | cons call calls ih =>
    cases call with
    | register o => exact ih (s.perform (.register o))
    | bind | decorate | setUp | request => exact ih s

theorem Performs.registry_of_sharing (did : Performs s call s') (sharing : call.isSharing) :
    s'.registry = s.registry ∧ s'.site = s.site := by
  cases did with
  | bind | decorate => exact ⟨rfl, rfl⟩
  | register | setUp | request => cases sharing

theorem after_sharing (s : Server) (calls : List Call) :
    (s.after (calls.filter (·.isSharing))).registry = s.registry ∧
      (s.after (calls.filter (·.isSharing))).site = s.site := by
  induction calls generalizing s with
  | nil => exact ⟨rfl, rfl⟩
  | cons call calls ih =>
    cases sharing : call.isSharing with
    | false =>
      rw [List.filter_cons_of_neg (by simp [sharing])]
      exact ih s
    | true =>
      rw [List.filter_cons_of_pos (by simpa using sharing)]
      have step := (s.perform_performs call).registry_of_sharing sharing
      have rest := ih (s.perform call)
      exact ⟨rest.1.trans step.1, rest.2.trans step.2⟩

theorem respond_congr (options : s.options = t.options) (room : s.room = t.room)
    (shared : s.SharesWith t) (site : Site) (r : Request) (now : ClockReading) :
    s.respond site r now = t.respond site r now := by
  unfold respond receive dispatch context
  rw [options, room, shared.bindings, shared.decorations]

theorem request_of_site {site : Site} (up : s.site = some site) (r : Request)
    (now : ClockReading) : s.request r now = some (s.respond site r now) := by
  rw [request, up, Option.map_some]

end Server

/-- A handler is shown the shared values, the request, and what is wrong with the body. -/
structure Server.Shows (s : Server) (r : Request) (c : Context Request) : Prop where
  bindings : c.bindings = s.bindings
  decorations : c.decorations = s.decorations
  request : c.request = some r
  validationError : ∀ cause, c.validationError = some cause ↔
    ∃ raw, Exchange.payload s.room.body r.body = .ok raw ∧
      Envelope.decode s.room.data raw = .error (.refused cause)

namespace Server

variable {s t : Server}

theorem shows_given (s : Server) {r : Request} {raw : Value}
    (read : Exchange.payload s.room.body r.body = .ok raw) :
    s.Shows r (Dispatch.given s.room.data raw (s.context r)).2 := by
  unfold Dispatch.given Dispatch.problem?
  cases decoded : Envelope.decode s.room.data raw with
  | ok e => exact ⟨rfl, rfl, rfl, fun cause => by simp [context, read, decoded]⟩
  | error stop =>
    cases stop with
    | refused cause => exact ⟨rfl, rfl, rfl, fun other => by simp [read, decoded]⟩
    | halted cause => exact ⟨rfl, rfl, rfl, fun other => by simp [read, decoded]⟩

theorem given_of_mem_respond {site : Site} {r : Request} {now : ClockReading}
    {i : Invocation Request} (ran : i ∈ (s.respond site r now).invocations) :
    ∃ raw, Exchange.payload s.room.body r.body = .ok raw ∧
      i.context = (Dispatch.given s.room.data raw (s.context r)).2 := by
  unfold respond at ran
  split at ran
  case h_3 =>
    unfold receive at ran
    split at ran
    · cases ran
    · cases ran
    · unfold dispatch at ran
      split at ran
      · cases ran
      · next raw read => exact ⟨raw, read, (Dispatch.given_of_mem_invocations ran).2⟩
  all_goals cases ran

theorem shows_of_mem_invocations {site : Site} {r : Request} {now : ClockReading}
    {i : Invocation Request} (ran : i ∈ (s.respond site r now).invocations) :
    s.Shows r i.context := by
  obtain ⟨raw, read, context⟩ := given_of_mem_respond ran
  rw [context]
  exact s.shows_given read

def nullBody : Bytes := [0x6e, 0x75, 0x6c, 0x6c]

@[simp] theorem payload_nullBody (depth : Nat) : Exchange.payload depth nullBody = .ok .null := rfl

theorem payload_of_malformed {depth : Nat} {body : Bytes}
    (malformed : Json.readBytes Json.boundedNumber depth body = .error .malformed) :
    Exchange.payload depth body = Exchange.payload depth nullBody := by
  rw [payload_nullBody, Exchange.payload, malformed]

theorem payload_encodes {depth : Nat} {es : Entries} {cs : List Char} {e : Encoding} {body : Bytes}
    (written : Json.WritesPadded (.dict es) cs) (plain : (Value.dict es).isPlain)
    (level : (Value.dict es).depth ≤ depth) (encoded : e.Encodes cs body) :
    Exchange.payload depth body = .ok (.dict es) := by
  rw [Exchange.payload, Json.readBytes_encodes written plain level encoded]

theorem agrees_respond (s : Server) (site : Site) (r : Request) {body : Bytes}
    (payload : Exchange.payload s.room.body r.body = Exchange.payload s.room.body body)
    (now : ClockReading) :
    (s.respond site r now).Agrees (s.respond site { r with body } now) := by
  have refl : ∀ x : Exchange, x.invocations = [] → x.Agrees x := by
    intro x idle
    refine ⟨?_, fun _ => ⟨rfl, rfl, rfl⟩⟩
    rw [idle]
    exact .nil
  have route : site.route { r with body } = site.route r := rfl
  have authorizes : s.options.authorizes s.room.token { r with body } now
      = s.options.authorizes s.room.token r now := rfl
  unfold respond receive
  rw [route, authorizes]
  split
  case h_3 =>
    split
    · exact refl _ rfl
    · exact refl _ rfl
    · exact s.agrees_of_payload site.table payload
  all_goals exact refl _ rfl

/-- The calls that make a server of the same handlers and shared values, and nothing else. -/
def replay (before serving : List Call) : List Call :=
  before.filter (·.isOffer) ++ (before ++ serving).filter (·.isSharing)

variable {start : Server} {before serving : List Call} {site : Site}

theorem sharesWith_replay (start : Server) (before serving : List Call) :
    (start.after (before ++ .setUp :: serving)).SharesWith
      (start.after (replay before serving)) := by
  have offers := start.sharesWith_after_offers before
  have alike := SharesWith.after_filter (s := start) ⟨offers.bindings.symm, offers.decorations.symm⟩
    (before ++ .setUp :: serving)
  have calls : (before ++ .setUp :: serving).filter (·.isSharing)
      = (before ++ serving).filter (·.isSharing) := by
    simp [List.filter_append, Call.isSharing]
  rwa [calls, ← after_append] at alike

theorem site_replay (fresh : start.site = none) :
    (start.after (replay before serving)).site = none := by
  rw [replay, after_append, (after_sharing _ _).2, site_after_offers, fresh]

theorem setUp_outcome_replay (fresh : start.site = none) (down : (start.after before).site = none)
    (ready : (start.after before).setUp.outcome = .ok site) :
    (start.after (replay before serving)).setUp.outcome = .ok site := by
  have frame := start.sameFrame_after before
  have frame' := start.sameFrame_after (replay before serving)
  have places : (start.after (replay before serving)).places = (start.after before).places :=
    places_congr (frame'.name.trans frame.name.symm) (frame'.options.trans frame.options.symm)
  obtain ⟨p, placed⟩ := places_of_setUp ready down
  rw [places_congr frame.name frame.options] at placed
  have registry : (start.after (replay before serving)).registry
      = (start.after before).registry := by
    rw [replay, after_append, (after_sharing _ _).1]
    exact (registry_after_filter rfl placed before down).symm
  rw [setUp_outcome_of_down (site_replay fresh), registry, places, ← setUp_outcome_of_down down,
    ready]

/-- Whatever a server was asked before, it answers as a server does which was just set up with the
same handlers and shares the same values. A handler sees these values, the request, and what is
wrong with this body: what the contract finds wrong with the object that it is the text of, in any
encoding. A body that is no JSON counts as null. -/
theorem request_leaves_no_trace (name : String) (options : ServerOptions) (room : Room)
    (before serving : List Call) (down : (after { name, options, room } before).site = none)
    {site : Site} (ready : (after { name, options, room } before).setUp.outcome = .ok site)
    (r : Request) (now : ClockReading) :
    let served := after { name, options, room } (before ++ .setUp :: serving)
    let fresh := after { name, options, room }
      (before.filter (·.isOffer) ++ (before ++ serving).filter (·.isSharing) ++ [.setUp])
    (fresh.site = some site ∧ served.SharesWith fresh) ∧
    ∃ x, served.request r now = some x ∧ fresh.request r now = some x ∧
      (∀ i ∈ x.invocations, served.Shows r i.context) ∧
      (∀ (e : Encoding) cs es, e.Encodes cs r.body → Json.WritesPadded (.dict es) cs →
        (Value.dict es).isPlain → (Value.dict es).depth ≤ room.body →
        ∀ i ∈ x.invocations, ∀ cause, i.context.validationError = some cause ↔
          Envelope.decode room.data (.dict es) = .error (.refused cause)) ∧
      (Json.readBytes Json.boundedNumber room.body r.body = .error .malformed →
        ∃ x', served.request { r with body := nullBody } now = some x' ∧ x.Agrees x') := by
  intro served fresh
  have frame : SameFrame { name, options, room } served := sameFrame_after _ _
  have frame' : SameFrame { name, options, room } fresh := sameFrame_after _ _
  have replayed : fresh = (after { name, options, room } (replay before serving)).perform .setUp :=
    after_append ..
  have shared : served.SharesWith fresh := by
    have step := ((after { name, options, room } (replay before serving)).perform_performs
      .setUp).sharesWith rfl
    rw [← replayed] at step
    exact (sharesWith_replay _ before serving).trans ⟨step.bindings.symm, step.decorations.symm⟩
  have up : served.site = some site := by
    have set := site_of_setUp ready
    unfold served
    rw [after_append]
    exact site_after set serving
  have up' : fresh.site = some site := by
    rw [replayed]
    exact site_of_setUp (setUp_outcome_replay rfl down ready)
  -- beside its site a server answers by its options, its room and the shared values alone
  have same : served.respond site r now = fresh.respond site r now :=
    respond_congr (frame.options.trans frame'.options.symm) (frame.room.trans frame'.room.symm)
      shared site r now
  refine ⟨⟨up', shared⟩, served.respond site r now, request_of_site up r now, ?_,
    fun i ran => shows_of_mem_invocations ran, ?_, ?_⟩
  · rw [request_of_site up', same]
  · intro e cs es encoded written plain level i ran cause
    rw [(shows_of_mem_invocations ran).validationError, frame.room,
      payload_encodes written plain level encoded]
    simp
  · intro malformed
    refine ⟨_, request_of_site up _ now, agrees_respond served site r ?_ now⟩
    rw [frame.room]
    exact payload_of_malformed malformed

theorem request_leaves_no_trace_after_broken_push :
    let echo : Handler Request := ⟨"echo", fun _ c => .ok (.value (.dict c.bindings))⟩
    let options : ServerOptions := ⟨"/", "0.0.0.0", 8080, "development", none⟩
    let room : Room := ⟨900, 900, 900, 900⟩
    let before : List Call :=
      [.setUp, .bind none [("x", .int 1)], .register ⟨.handler "echo" echo, .null⟩]
    let now : ClockReading := .ok ⟨0, 0⟩
    let broken : Request := ⟨"POST", "/", [], [0x7b]⟩
    let serving : List Call := [.request broken now, .bind none [("x", .int 2)],
      .bind none [("request", .null)], .decorate (.str "y") (.bool true)]
    let served := after { name := "f", options, room } (before ++ .setUp :: serving)
    let fresh := after { name := "f", options, room }
      [.register ⟨.handler "echo" echo, .null⟩, .bind none [("x", .int 1)],
        .bind none [("x", .int 2)], .bind none [("request", .null)],
        .decorate (.str "y") (.bool true), .setUp]
    let site : Site := ⟨{ catchAll := some echo }, options.healthcheckPath.toList.map .literal,
      options.path.toList.map .literal⟩
    (after { name := "f", options, room } before).site = none ∧
      (after { name := "f", options, room } before).setUp.outcome = .ok site ∧
      ∃ x, served.request broken now = some x ∧ fresh.request broken now = some x ∧
        x.response.body = "\x7b\"x\":2\x7d" := by
  intro echo options room before now broken serving served fresh site
  have down : (after { name := "f", options, room } before).site = none := rfl
  have frame := sameFrame_after { name := "f", options, room } before
  have ready : (after { name := "f", options, room } before).setUp.outcome = .ok site := by
    rw [setUp_of_literal down rfl (by decide +kernel) (by decide +kernel) (by decide +kernel),
      frame.options]
    rfl
  obtain ⟨-, x, answer, same, -⟩ :=
    request_leaves_no_trace "f" options room before serving down ready broken now
  refine ⟨down, ready, x, answer, same, ?_⟩
  have body : (served.request broken now).map (·.response.body) = some "\x7b\"x\":2\x7d" := by
    decide +kernel
  rw [answer] at body
  exact Option.some.inj body

/-- A body that opens lists without end is no JSON, yet it does not count as null: the push fails
and no handler runs. -/
theorem brackets_differ_from_null :
    let idle : Handler Request := ⟨"idle", fun _ _ => .ok (.value .null)⟩
    let options : ServerOptions := ⟨"/", "0.0.0.0", 8080, "development", none⟩
    let s := after { name := "f", options, room := ⟨900, 900, 900, 900⟩ }
      [.register ⟨.handler "idle" idle, .null⟩, .setUp]
    let now : ClockReading := .ok ⟨0, 0⟩
    let r : Request := ⟨"POST", "/", [], Encoding.encodeUtf8 (List.replicate 12000 '[')⟩
    (∀ depth v, Json.readBytes Json.boundedNumber depth r.body ≠ .ok v) ∧
      ∃ x x', s.request r now = some x ∧ s.request { r with body := nullBody } now = some x' ∧
        (x.response.status = 500 ∧ x.invocations.length = 0) ∧
        x'.response.status = 200 ∧ x'.invocations.length = 1 := by
  intro idle options s now r
  let site : Site := ⟨{ catchAll := some idle }, options.healthcheckPath.toList.map .literal,
    options.path.toList.map .literal⟩
  have up : s.site = some site :=
    site_of_catchAll "idle" idle (by decide) (by decide +kernel) (by decide +kernel)
  have push : site.route r = .ok .push := eq_ok_of_toOption (by decide +kernel)
  have push' : site.route { r with body := nullBody } = .ok .push :=
    eq_ok_of_toOption (by decide +kernel)
  have deep : Exchange.payload 900 r.body = .error (.tooDeep false) := by
    have read : Json.readBytes Json.boundedNumber 900 r.body = .error (.halted (.tooDeep false)) :=
      Json.readBytes_brackets _ .utf8 (by decide)
    rw [Exchange.payload, read]
  refine ⟨fun depth => Json.readBytes_brackets_ne_ok _ .utf8 depth (by decide), _, _,
    request_of_push up push now, request_of_push up push' now, ?_, ?_⟩
  · have halted : s.receive site.table r now = .fail (.body (.tooDeep false)) := by
      show s.dispatch site.table r = _
      rw [dispatch, show Exchange.payload s.room.body r.body = _ from deep]
    rw [halted]
    exact ⟨rfl, rfl⟩
  · exact ⟨rfl, rfl⟩

end Server
end PushDispatch
