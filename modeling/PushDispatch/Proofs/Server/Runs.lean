import PushDispatch.Proofs.Except
import PushDispatch.Proofs.Registry.Numbering
import PushDispatch.Server.Push

/-! Runs of a server, call after call: handlers are offered, values shared, the server is set up and
asked. Each call touches its own part of the server only. The table of a site is that of the
registry, which is frozen then, and its rules are numbered by their places. -/
namespace PushDispatch

namespace PathTemplate

theorem readPieces_literal {cs : List Char} (plain : '\x7b' ∉ cs) {fuel : Nat}
    (enough : cs.length ≤ fuel) : readPieces fuel cs = .ok (cs.map .literal) := by
  induction cs generalizing fuel with
  | nil => cases fuel <;> rfl
  | cons c cs ih =>
    rw [List.mem_cons, not_or] at plain
    cases fuel with
    | zero => simp at enough
    | succ fuel =>
      have rest := ih plain.2 (Nat.le_of_succ_le_succ enough)
      rw [readPieces, if_neg (Ne.symm plain.1), rest]
      rfl

theorem read_literal {text : String} (plain : '\x7b' ∉ text.toList) :
    read text = .ok (text.toList.map .literal) := by
  have unnamed : fieldNames (text.toList.map .literal) = [] := by simp [fieldNames]
  have single : repeatedNames (text.toList.map .literal) = [] := by simp [repeatedNames, unnamed]
  unfold read
  simp only [readPieces_literal plain (Nat.le_refl _), ok_bind, single, if_pos]
  rfl

end PathTemplate

namespace Server

inductive Call where
  | register (o : Registry.Offer (Handler Request))
  | bind (values : Option Value) (keywords : Named Value)
  | decorate (name value : Value)
  | setUp
  | request (r : Request) (now : ClockReading)

/-- The server after a call. One that is refused leaves it as it was, and a request always does. -/
def perform (s : Server) : Call → Server
  | .register o => (s.register o.candidate o.condition).server
  | .bind values keywords => (s.bind values keywords).toOption.getD s
  | .decorate name value => (s.decorate name value).toOption.getD s
  | .setUp => s.setUp.server
  | .request _ _ => s

def after (s : Server) : List Call → Server
  | [] => s
  | call :: calls => (s.perform call).after calls

theorem after_append (s : Server) (calls more : List Call) :
    s.after (calls ++ more) = (s.after calls).after more := by
  induction calls generalizing s with
  | nil => rfl
  | cons call calls ih => exact ih (s.perform call)

theorem perform_bind (values : Option Value) (keywords : Named Value) :
    ∃ change : Entries → Entries, ∀ s : Server,
      s.perform (.bind values keywords) = { s with bindings := change s.bindings } := by
  simp only [perform, bind]
  generalize (if values.isSome then ["self", "values"] else ["self"]) = taken
  split
  · exact ⟨id, fun s => rfl⟩
  · cases Entries.ofValue (values.getD ((keywords.lookup "values").getD .null)) with
    | error cause => exact ⟨id, fun s => rfl⟩
    | ok entries =>
      simp only [mapError_ok, ok_bind]
      split
      · exact ⟨fun bs => bs.merge (entries.merge _), fun s => rfl⟩
      · exact ⟨id, fun s => rfl⟩

theorem perform_decorate (name value : Value) :
    ∃ change : Entries → Entries, ∀ s : Server,
      s.perform (.decorate name value) = { s with decorations := change s.decorations } := by
  simp only [perform, decorate]
  cases Key.ofValue name with
  | error cause => exact ⟨id, fun s => rfl⟩
  | ok key =>
    refine ⟨fun ds => if key.text?.any Context.ownNames.contains then ds
      else if (Entries.lookup? ds key).isSome then ds else Entries.insert ds key value, fun s => ?_⟩
    simp only [mapError_ok, ok_bind]
    split
    · rfl
    · split <;> rfl

def places (s : Server) : Except SetUpError (PathTemplate × PathTemplate) :=
  (s.build {}).map fun site => (site.healthcheck, site.push)

theorem build_eq (s : Server) (table : Table (Handler Request)) :
    s.build table = s.places.map fun p => ⟨table, p.1, p.2⟩ := by
  unfold places build
  split
  · rfl
  · cases PathTemplate.read s.options.healthcheckPath with
    | error cause => rfl
    | ok healthcheck =>
      cases PathTemplate.read s.options.path <;> rfl

theorem places_congr {s s' : Server} (name : s.name = s'.name) (options : s.options = s'.options) :
    s.places = s'.places := by
  unfold places build
  rw [name, options]

theorem places_of_literal {s : Server} (named : s.name ≠ "")
    (healthcheck : '\x7b' ∉ s.options.healthcheckPath.toList)
    (push : '\x7b' ∉ s.options.path.toList) :
    s.places = .ok (s.options.healthcheckPath.toList.map .literal,
      s.options.path.toList.map .literal) := by
  unfold places build
  rw [if_neg named, PathTemplate.read_literal healthcheck, PathTemplate.read_literal push]
  rfl

/-- All that setting up can come to: the server afterwards, and the outcome. -/
inductive SetsUp (s : Server) : Server → Except SetUpError Site → Prop where
  | again {site} (up : s.site = some site) : SetsUp s s (.ok site)
  | unready (down : s.site = none) (refused : s.registry.freeze.outcome = .error .noHandlers) :
      SetsUp s s (.error (.freeze .noHandlers))
  | unplaced {cause} (down : s.site = none)
      (frozen : s.registry.freeze.outcome = .ok s.registry.table)
      (places : s.places = .error cause) :
      SetsUp s { s with registry := { s.registry with state := .frozen } } (.error cause)
  | ready {healthcheck push} (down : s.site = none)
      (frozen : s.registry.freeze.outcome = .ok s.registry.table)
      (places : s.places = .ok (healthcheck, push)) :
      SetsUp s
        { s with
          registry := { s.registry with state := .frozen }
          site := some ⟨s.registry.table, healthcheck, push⟩ }
        (.ok ⟨s.registry.table, healthcheck, push⟩)

theorem setsUp_of_frozen {s : Server} (down : s.site = none)
    (frozen : s.registry.freeze.outcome = .ok s.registry.table) :
    SetsUp s
      { s with
        registry := { s.registry with state := .frozen }
        site := (s.build s.registry.table).toOption }
      (s.build s.registry.table) := by
  rw [build_eq]
  cases places : s.places with
  | error cause =>
    show SetsUp s
      { s with registry := { s.registry with state := .frozen }, site := none } (.error cause)
    rw [← down]
    exact .unplaced down frozen places
  | ok p => exact .ready down frozen places

theorem setUp_setsUp (s : Server) : SetsUp s s.setUp.server s.setUp.outcome := by
  unfold setUp
  split
  · rename_i site up
    exact .again up
  · rename_i down
    have did := Registry.freeze_freezes s.registry
    dsimp only
    generalize s.registry.freeze.registry = r at did ⊢
    generalize freeze : s.registry.freeze.outcome = outcome at did ⊢
    cases did with
    | again state =>
      have same : { s.registry with state := .frozen } = s.registry := by rw [← state]
      have frozen := setsUp_of_frozen down freeze
      rw [same] at frozen
      exact frozen
    | empty state bare =>
      show SetsUp s { s with site := none } (.error (.freeze .noHandlers))
      rw [← down]
      exact .unready down freeze
    | ended state some => exact setsUp_of_frozen down freeze

theorem setUp_outcome_of_down {s : Server} (down : s.site = none) :
    s.setUp.outcome = (s.registry.freeze.outcome.mapError .freeze).bind
      fun table => s.places.map fun p => ⟨table, p.1, p.2⟩ := by
  have built : s.build = fun table => s.places.map fun p => ⟨table, p.1, p.2⟩ := by
    funext table
    exact s.build_eq table
  unfold setUp
  simp only [down]
  rw [built]

theorem site_of_setUp {s : Server} {site : Site} (ready : s.setUp.outcome = .ok site) :
    s.setUp.server.site = some site := by
  have did := s.setUp_setsUp
  rw [ready] at did
  generalize s.setUp.server = s' at did ⊢
  cases did with
  | again up => exact up
  | ready => rfl

theorem places_of_setUp {s : Server} {site : Site} (ready : s.setUp.outcome = .ok site)
    (down : s.site = none) : ∃ p, s.places = .ok p := by
  have did := s.setUp_setsUp
  rw [ready] at did
  generalize s.setUp.server = s' at did
  cases did with
  | again up => cases down.symm.trans up
  | ready _ _ placed => exact ⟨_, placed⟩

theorem setUp_of_literal {s : Server} (down : s.site = none)
    (frozen : s.registry.freeze.outcome = .ok s.registry.table) (named : s.name ≠ "")
    (healthcheck : '\x7b' ∉ s.options.healthcheckPath.toList)
    (push : '\x7b' ∉ s.options.path.toList) :
    s.setUp.outcome = .ok ⟨s.registry.table, s.options.healthcheckPath.toList.map .literal,
      s.options.path.toList.map .literal⟩ := by
  rw [setUp_outcome_of_down down, frozen, places_of_literal named healthcheck push]
  rfl

/-- All that a call can come to: each touches its own part of the server. -/
inductive Performs (s : Server) : Call → Server → Prop where
  | register (o) : Performs s (.register o) { s with registry := s.registry.offer o }
  | bind {values keywords} (bindings) : Performs s (.bind values keywords) { s with bindings }
  | decorate {name value} (decorations) : Performs s (.decorate name value) { s with decorations }
  | setUp {s' outcome} (did : SetsUp s s' outcome) : Performs s .setUp s'
  | request (r now) : Performs s (.request r now) s

theorem perform_performs (s : Server) (call : Call) : Performs s call (s.perform call) := by
  cases call with
  | register o => exact .register o
  | bind values keywords =>
    obtain ⟨change, bound⟩ := perform_bind values keywords
    rw [bound]
    exact .bind _
  | decorate name value =>
    obtain ⟨change, decorated⟩ := perform_decorate name value
    rw [decorated]
    exact .decorate _
  | setUp => exact .setUp s.setUp_setsUp
  | request r now => exact .request r now

variable {s s' : Server} {call : Call} {site : Site}

/-- The name, the options and the room of a server are there to stay. -/
structure SameFrame (s s' : Server) : Prop where
  name : s'.name = s.name
  options : s'.options = s.options
  room : s'.room = s.room

theorem Performs.sameFrame (did : Performs s call s') : SameFrame s s' := by
  cases did with
  | setUp did => cases did <;> exact ⟨rfl, rfl, rfl⟩
  | register | bind | decorate | request => exact ⟨rfl, rfl, rfl⟩

theorem Performs.site_eq (did : Performs s call s') (up : s.site = some site) :
    s'.site = some site := by
  cases did with
  | setUp did =>
    cases did with
    | again | unready | unplaced => exact up
    | ready down => cases down.symm.trans up
  | register | bind | decorate | request => exact up

theorem sameFrame_after (s : Server) (calls : List Call) : SameFrame s (s.after calls) := by
  induction calls generalizing s with
  | nil => exact ⟨rfl, rfl, rfl⟩
  | cons call calls ih =>
    have step := (s.perform_performs call).sameFrame
    have rest := ih (s.perform call)
    exact ⟨rest.name.trans step.name, rest.options.trans step.options, rest.room.trans step.room⟩

theorem site_after (up : s.site = some site) (calls : List Call) :
    (s.after calls).site = some site := by
  induction calls generalizing s with
  | nil => exact up
  | cons call calls ih => exact ih ((s.perform_performs call).site_eq up)

/-- The rules are numbered, and a site has the table of the registry, which is final. -/
structure IsSound (s : Server) : Prop where
  numbered : s.registry.IsNumbered
  table : ∀ site, s.site = some site → site.table = s.registry.table ∧ s.registry.state = .frozen

theorem isSound_new (name : String) (options : ServerOptions) (room : Room) :
    IsSound { name, options, room } := ⟨Registry.isNumbered_empty, nofun⟩

theorem IsSound.setsUp (h : s.IsSound) {outcome : Except SetUpError Site}
    (did : SetsUp s s' outcome) : s'.IsSound := by
  cases did with
  | again | unready => exact h
  | unplaced down =>
    refine ⟨⟨h.numbered.counter, h.numbered.table⟩, fun site up => ?_⟩
    cases down.symm.trans up
  | ready =>
    refine ⟨⟨h.numbered.counter, h.numbered.table⟩, fun site up => ?_⟩
    cases up
    exact ⟨rfl, rfl⟩

theorem IsSound.performs (h : s.IsSound) (did : Performs s call s') : s'.IsSound := by
  cases did with
  | register o =>
    refine ⟨h.numbered.offer o, fun site up => ?_⟩
    obtain ⟨table, frozen⟩ := h.table site up
    rw [Registry.offer_of_frozen frozen]
    exact ⟨table, frozen⟩
  | bind | decorate => exact ⟨h.numbered, h.table⟩
  | setUp did => exact h.setsUp did
  | request => exact h

theorem IsSound.after (h : s.IsSound) (calls : List Call) : (s.after calls).IsSound := by
  induction calls generalizing s with
  | nil => exact h
  | cons call calls ih => exact ih (h.performs (s.perform_performs call))

theorem site_of_catchAll {name : String} {options : ServerOptions} {room : Room} (label : String)
    (handler : Handler Request) (named : name ≠ "")
    (healthcheck : '\x7b' ∉ options.healthcheckPath.toList) (push : '\x7b' ∉ options.path.toList) :
    (after { name, options, room } [.register ⟨.handler label handler, .null⟩, .setUp]).site
      = some ⟨{ catchAll := some handler }, options.healthcheckPath.toList.map .literal,
          options.path.toList.map .literal⟩ := by
  apply site_of_setUp
  let s := after { name, options, room } [.register ⟨.handler label handler, .null⟩]
  exact setUp_of_literal (s := s) rfl rfl named healthcheck push

end Server
end PushDispatch
