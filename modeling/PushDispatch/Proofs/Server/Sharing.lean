import PushDispatch.Proofs.Server.Independence
import PushDispatch.Proofs.Value.Equivalence
import PushDispatch.Proofs.Value.Setting

/-! What a handler finds on its context under a name, told from the calls that shared something
before the push. The context's own fields come first and nothing is ever shared under their names.
Then comes the decoration of the name, of which there is one at most, and then what was bound under
it last. A call that is refused shares nothing. -/
namespace PushDispatch

namespace Server

/-- What stands for the values to bind: the argument, or the keyword in its place. -/
def mappingOf (values : Option Value) (keywords : Named Value) : Value :=
  values.getD ((keywords.lookup "values").getD .null)

def namedOf (keywords : Named Value) : Named Value := keywords.filter (·.1 ≠ "values")

namespace Call

/-- What a call binds under a name. Its keywords count before its mapping. -/
def binding? (name : String) : Call → Option Value
  | .bind values keywords =>
    ((namedOf keywords).lookup name).or
      ((Entries.ofValue (mappingOf values keywords)).toOption.bind (Entries.field? · name))
  | _ => none

def decoration? (name : String) : Call → Option Value
  | .decorate (.str other) value => if other = name then some value else none
  | _ => none

def KeysOnce : Call → Prop
  | .bind values keywords => keywords.names.Nodup ∧
      ∀ entries, (mappingOf values keywords).entries? = some entries → entries.KeysOnce
  | _ => True

end Call

def shares (s : Server) : Call → Bool
  | .bind values keywords => (s.bind values keywords).isOk
  | .decorate name value => (s.decorate name value).isOk
  | _ => false

def sharings (s : Server) : List Call → List Call
  | [] => []
  | call :: calls =>
    if s.shares call then call :: (s.perform call).sharings calls
    else (s.perform call).sharings calls

def bound? (calls : List Call) (name : String) : Option Value :=
  calls.reverse.findSome? (Call.binding? name)

def decorated? (calls : List Call) (name : String) : Option Value :=
  calls.findSome? (Call.decoration? name)

variable {s s' : Server} {call : Call}

/-- All that a call can share: what it binds, or its decoration. Nothing has a reserved name. -/
inductive Shares (s : Server) : Call → Server → Prop where
  | bind {values keywords entries merged}
      (stands : Entries.ofValue (mappingOf values keywords) = .ok entries)
      (merges : merged = entries.merge (Entries.ofFields (namedOf keywords)))
      (unreserved : ∀ name ∈ Context.ownNames, Entries.hasField merged name = false) :
      Shares s (.bind values keywords) { s with bindings := s.bindings.merge merged }
  | decorate {name value key} (stands : Key.ofValue name = .ok key)
      (unreserved : ∀ text, key = .str text → text ∉ Context.ownNames)
      (new : Entries.lookup? s.decorations key = none) :
      Shares s (.decorate name value)
        { s with decorations := Entries.insert s.decorations key value }

theorem shares_of_bind {values : Option Value} {keywords : Named Value}
    (done : s.bind values keywords = .ok s') : Shares s (.bind values keywords) s' := by
  unfold bind at done
  generalize (if values.isSome then ["self", "values"] else ["self"]) = taken at done
  dsimp only at done
  split at done
  · cases done
  · obtain ⟨entries, stands, done⟩ := exists_of_bind_eq_ok done
    split at done
    · rename_i unreserved
      rw [← Except.ok.inj done]
      refine .bind (mapError_eq_ok_iff.1 stands) rfl fun name own => ?_
      exact Bool.eq_false_iff.2 (List.filter_eq_nil_iff.1 unreserved name own)
    · cases done

theorem shares_of_decorate {name value : Value} (done : s.decorate name value = .ok s') :
    Shares s (.decorate name value) s' := by
  unfold decorate at done
  obtain ⟨key, stands, done⟩ := exists_of_bind_eq_ok done
  dsimp only at done
  split at done
  · cases done
  · rename_i unreserved
    split at done
    · cases done
    · rename_i new
      rw [← Except.ok.inj done]
      refine .decorate (mapError_eq_ok_iff.1 stands) ?_ (by simpa using new)
      rintro text rfl own
      exact unreserved (by simpa [Key.text?] using own)

theorem perform_shares (done : s.shares call) : Shares s call (s.perform call) := by
  cases call with
  | bind values keywords =>
    obtain ⟨s', done, after⟩ := exists_of_isOk (x := s.bind values keywords) done s
    rw [show s.perform (.bind values keywords) = s' from after]
    exact shares_of_bind done
  | decorate name value =>
    obtain ⟨s', done, after⟩ := exists_of_isOk (x := s.decorate name value) done s
    rw [show s.perform (.decorate name value) = s' from after]
    exact shares_of_decorate done
  | register | setUp | request => cases done

theorem perform_of_refused (sharing : call.isSharing) (refused : s.shares call = false) :
    s.perform call = s := by
  cases call with
  | bind values keywords => exact getD_of_not_isOk (x := s.bind values keywords) refused s
  | decorate name value => exact getD_of_not_isOk (x := s.decorate name value) refused s
  | register | setUp | request => cases sharing

theorem sharesWith_of_not_shares (idle : s.shares call = false) :
    (s.perform call).SharesWith s := by
  cases sharing : call.isSharing with
  | false => exact (s.perform_performs call).sharesWith sharing
  | true =>
    rw [perform_of_refused sharing idle]
    exact ⟨rfl, rfl⟩

theorem ofValue_eq_str_iff {v : Value} {name : String} :
    Key.ofValue v = .ok (.str name) ↔ v = .str name := by
  cases v with
  | tuple items =>
    rw [Key.ofValue]
    cases Key.ofValues items <;> simp [Except.map]
  | _ => simp [Key.ofValue]

theorem field?_merged {values : Option Value} {keywords : Named Value} {entries : Entries}
    (stands : Entries.ofValue (mappingOf values keywords) = .ok entries)
    (once : keywords.names.Nodup) (name : String) :
    Entries.field? (entries.merge (Entries.ofFields (namedOf keywords))) name
      = (Call.bind values keywords).binding? name := by
  have apart : ((namedOf keywords).map (·.1)).Nodup :=
    once.sublist (List.filter_sublist.map _)
  have merged := entries.lookup?_merge (Entries.keysOnce_ofFields apart) (.str name)
  have named : Entries.lookup? (Entries.ofFields (namedOf keywords)) (.str name) = _ :=
    Value.field?_ofFields (namedOf keywords) name
  rw [Entries.field?, merged, named]
  simp only [Call.binding?, stands]
  rfl

theorem Shares.field?_bindings (did : Shares s call s') (once : call.KeysOnce) (name : String) :
    Entries.field? s'.bindings name = (call.binding? name).or (Entries.field? s.bindings name) := by
  cases did with
  | decorate => rfl
  | @bind values keywords entries merged stands merges =>
    have known := (Entries.keysOnce_of_ofValue once.2 stands).merge
      (Entries.ofFields (namedOf keywords))
    rw [← merges] at known
    rw [← field?_merged stands once.1 name, ← merges]
    exact s.bindings.lookup?_merge known (.str name)

theorem decoration?_eq {called value : Value} {key : Key} (stands : Key.ofValue called = .ok key)
    (name : String) : (Call.decorate called value).decoration? name
      = if key.same (.str name) then some value else none := by
  by_cases named : key.same (.str name)
  · rw [Key.same_comm] at named
    rw [Key.same_str_iff.1 named, ofValue_eq_str_iff] at stands
    rw [if_pos (by rwa [Key.same_comm]), stands]
    exact if_pos rfl
  · rw [if_neg named]
    cases called with
    | str other =>
      obtain rfl := Except.ok.inj stands
      exact if_neg (by simpa [Key.same] using named)
    | _ => rfl

theorem Shares.field?_decorations (did : Shares s call s') (name : String) :
    Entries.field? s'.decorations name
        = (Entries.field? s.decorations name).or (call.decoration? name) ∧
      ((call.decoration? name).isSome → Entries.field? s.decorations name = none) := by
  cases did with
  | bind => exact ⟨(Option.or_none).symm, nofun⟩
  | @decorate called value key stands unreserved new =>
    rw [decoration?_eq stands]
    show Entries.lookup? (Entries.insert s.decorations key value) (.str name) = _ ∧ _
    rw [Entries.lookup?_insert]
    by_cases named : key.same (.str name)
    · have same : key = .str name := by
        rw [Key.same_comm] at named
        exact Key.same_str_iff.1 named
      rw [same] at new
      rw [if_pos named, if_pos named, show Entries.field? s.decorations name = none from new]
      exact ⟨rfl, fun _ => rfl⟩
    · rw [if_neg named, if_neg named]
      exact ⟨Option.or_none.symm, nofun⟩

theorem Shares.none_of_own (did : Shares s call s') (once : call.KeysOnce) {name : String}
    (own : name ∈ Context.ownNames) :
    call.binding? name = none ∧ call.decoration? name = none := by
  cases did with
  | @bind values keywords entries merged stands merges unreserved =>
    have absent := Option.isSome_eq_false_iff.1 (unreserved name own)
    rw [merges, field?_merged stands once.1] at absent
    exact ⟨Option.isNone_iff_eq_none.1 absent, rfl⟩
  | @decorate called value key stands unreserved new =>
    rw [decoration?_eq stands]
    refine ⟨rfl, if_neg fun named => ?_⟩
    rw [Key.same_comm] at named
    exact unreserved name (Key.same_str_iff.1 named) own

variable {calls : List Call}

theorem sharings_cons_of_shares (done : s.shares call) (calls : List Call) :
    s.sharings (call :: calls) = call :: (s.perform call).sharings calls := if_pos done

theorem sharings_cons_of_not_shares (idle : s.shares call = false) (calls : List Call) :
    s.sharings (call :: calls) = (s.perform call).sharings calls := if_neg (by simp [idle])

@[simp] theorem bound?_cons (call : Call) (calls : List Call) (name : String) :
    bound? (call :: calls) name = (bound? calls name).or (call.binding? name) := by
  rw [bound?, List.reverse_cons, List.findSome?_append]
  simp only [List.findSome?_cons, List.findSome?_nil, bound?]
  cases call.binding? name <;> rfl

@[simp] theorem decorated?_cons (call : Call) (calls : List Call) (name : String) :
    decorated? (call :: calls) name = (call.decoration? name).or (decorated? calls name) := by
  rw [decorated?, List.findSome?_cons]
  cases call.decoration? name <;> rfl

/-- The last call that binds a name decides on it. -/
theorem field?_bindings_after (s : Server) (once : ∀ call ∈ calls, call.KeysOnce) (name : String) :
    Entries.field? (s.after calls).bindings name
      = (bound? (s.sharings calls) name).or (Entries.field? s.bindings name) := by
  induction calls generalizing s with
  | nil => rfl
  | cons call calls ih =>
    obtain ⟨here, later⟩ := List.forall_mem_cons.1 once
    rw [after, ih _ later]
    cases done : s.shares call with
    | true =>
      rw [sharings_cons_of_shares done, bound?_cons, (perform_shares done).field?_bindings here,
        Option.or_assoc]
    | false =>
      rw [sharings_cons_of_not_shares done, (sharesWith_of_not_shares done).bindings]

/-- The first call that decorates a name decides on it. -/
theorem field?_decorations_after (s : Server) (calls : List Call) (name : String) :
    Entries.field? (s.after calls).decorations name
      = (Entries.field? s.decorations name).or (decorated? (s.sharings calls) name) := by
  induction calls generalizing s with
  | nil => exact Option.or_none.symm
  | cons call calls ih =>
    rw [after, ih]
    cases done : s.shares call with
    | true =>
      rw [sharings_cons_of_shares done, decorated?_cons,
        ((perform_shares done).field?_decorations name).1, Option.or_assoc]
    | false =>
      rw [sharings_cons_of_not_shares done, (sharesWith_of_not_shares done).decorations]

theorem length_decorations_le (s : Server) (calls : List Call) (name : String) :
    ((s.sharings calls).filterMap (Call.decoration? name)).length
      ≤ if (Entries.field? s.decorations name).isSome then 0 else 1 := by
  induction calls generalizing s with
  | nil => exact Nat.zero_le _
  | cons call calls ih =>
    have rest := ih (s.perform call)
    cases done : s.shares call with
    | false =>
      rw [sharings_cons_of_not_shares done]
      rwa [(sharesWith_of_not_shares done).decorations] at rest
    | true =>
      obtain ⟨decorations, new⟩ := (perform_shares done).field?_decorations name
      rw [decorations] at rest
      rw [sharings_cons_of_shares done, List.filterMap_cons]
      cases decoration : call.decoration? name with
      | none => simpa [decoration] using rest
      | some value =>
        rw [decoration] at new rest
        rw [new rfl] at rest ⊢
        simpa using rest

structure IsUnreserved (s : Server) : Prop where
  bindings : ∀ name ∈ Context.ownNames, Entries.field? s.bindings name = none
  decorations : ∀ name ∈ Context.ownNames, Entries.field? s.decorations name = none

theorem isUnreserved_new (name : String) (options : ServerOptions) (room : Room) :
    IsUnreserved { name, options, room } := ⟨fun _ _ => rfl, fun _ _ => rfl⟩

theorem IsUnreserved.perform (h : s.IsUnreserved) (once : call.KeysOnce) :
    (s.perform call).IsUnreserved := by
  cases done : s.shares call with
  | false =>
    have same := sharesWith_of_not_shares done
    exact ⟨by rw [same.bindings]; exact h.bindings, by rw [same.decorations]; exact h.decorations⟩
  | true =>
    have did := perform_shares done
    constructor
    · intro name own
      rw [did.field?_bindings once, (did.none_of_own once own).1, h.bindings name own]
      rfl
    · intro name own
      rw [(did.field?_decorations name).1, (did.none_of_own once own).2, h.decorations name own]
      rfl

theorem IsUnreserved.after (h : s.IsUnreserved) (once : ∀ call ∈ calls, call.KeysOnce) :
    (s.after calls).IsUnreserved := by
  induction calls generalizing s with
  | nil => exact h
  | cons call calls ih =>
    obtain ⟨here, later⟩ := List.forall_mem_cons.1 once
    exact ih (h.perform here) later

theorem attribute?_of_not_own {ρ : Type} (c : Context ρ) {name : String}
    (other : name ∉ Context.ownNames) :
    c.attribute? name
      = ((Entries.field? c.decorations name).or (Entries.field? c.bindings name)).map .value := by
  simp only [Context.ownNames, List.mem_cons, List.not_mem_nil, or_false, not_or] at other
  obtain ⟨h₁, h₂, h₃, h₄⟩ := other
  rw [Context.attribute?, if_neg h₁, if_neg h₂, if_neg h₃, if_neg h₄]
  cases Entries.field? c.decorations name <;> rfl

theorem exists_respond {r : Request} {now : ClockReading} {x : Exchange}
    (answered : s.request r now = some x) : ∃ site, x = s.respond site r now := by
  obtain ⟨site, -, same⟩ := Option.map_eq_some_iff.1 answered
  exact ⟨site, same.symm⟩

theorem validationError_given (s : Server) (raw : Value) (r : Request) :
    (Dispatch.given s.room.data raw (s.context r)).2.validationError
      = Dispatch.problem? s.room.data raw := by
  unfold Dispatch.given
  cases decoded : Envelope.decode s.room.data raw with
  | ok e => simp [Dispatch.problem?, decoded, context]
  | error cause => rfl

/-- After any calls to a new server, a handler of the next push finds under the four reserved names
the context's own fields, and nothing is ever shared under these. Under any other name it finds the
one decoration that succeeded, else what a call bound there last. Nothing a refused call offers is
found. -/
theorem context_shows_last_shared (name : String) (options : ServerOptions) (room : Room)
    (calls : List Call) (once : ∀ call ∈ calls, call.KeysOnce) :
    let served := after { name, options, room } calls
    let shared := sharings { name, options, room } calls
    (∀ n, (shared.filterMap (Call.decoration? n)).length ≤ 1) ∧
    (∀ n ∈ Context.ownNames, Entries.hasField served.bindings n = false ∧
      Entries.hasField served.decorations n = false) ∧
    (∀ call, call.isSharing → served.shares call = false → served.perform call = served) ∧
    ∀ r now x, served.request r now = some x → ∀ i ∈ x.invocations,
      i.context.attribute? "bindings" = some (.value (.dict served.bindings)) ∧
      i.context.attribute? "decorations" = some (.value (.dict served.decorations)) ∧
      i.context.attribute? "request" = some (.request (some r)) ∧
      (∃ raw, Exchange.payload room.body r.body = .ok raw ∧
        i.context.attribute? "validation_error"
          = some (.validationError (Dispatch.problem? room.data raw))) ∧
      ∀ n, n ∉ Context.ownNames →
        i.context.attribute? n = ((decorated? shared n).or (bound? shared n)).map .value := by
  intro served shared
  refine ⟨fun n => ?_, fun n own => ?_, fun call sharing => perform_of_refused sharing, ?_⟩
  · exact length_decorations_le { name, options, room } calls n
  · have unreserved := (isUnreserved_new name options room).after once
    exact ⟨by rw [Entries.hasField, unreserved.bindings n own]; rfl,
      by rw [Entries.hasField, unreserved.decorations n own]; rfl⟩
  · intro r now x answered i ran
    have frame : SameFrame { name, options, room } served := sameFrame_after _ calls
    obtain ⟨site, rfl⟩ := exists_respond answered
    have shows := shows_of_mem_invocations ran
    refine ⟨?_, ?_, ?_, ?_, fun n other => ?_⟩
    · rw [← shows.bindings]
      rfl
    · rw [← shows.decorations]
      rfl
    · rw [← shows.request]
      rfl
    · obtain ⟨raw, read, context⟩ := given_of_mem_respond ran
      have problem := served.validationError_given raw r
      rw [← context, frame.room] at problem
      rw [frame.room] at read
      refine ⟨raw, read, ?_⟩
      rw [← problem]
      rfl
    · have bindings := field?_bindings_after { name, options, room } once n
      have decorations := field?_decorations_after { name, options, room } calls n
      rw [attribute?_of_not_own i.context other, shows.decorations, shows.bindings, bindings,
        decorations]
      show Option.map _ (((none : Option Value).or _).or (Option.or _ none)) = _
      rw [Option.or_none]
      rfl

theorem context_shows_last_shared_bound_and_decorated :
    let rest : Handler Request := ⟨"rest", fun _ _ => .ok (.value .null)⟩
    let options : ServerOptions := ⟨"/", "0.0.0.0", 8080, "development", none⟩
    let room : Room := ⟨900, 900, 900, 900⟩
    let calls : List Call := [.register ⟨.handler "rest" rest, .null⟩,
      .bind (some (.ofFields [("x", .int 1), ("y", .int 2)])) [("x", .int 3)],
      .decorate (.str "y") (.int 4), .decorate (.str "y") (.int 5), .bind none [("y", .int 6)],
      .bind none [("x", .int 7), ("request", .int 8)], .setUp]
    let served := after { name := "f", options, room } calls
    let r : Request := ⟨"POST", "/", [], nullBody⟩
    let now : ClockReading := .ok ⟨0, 0⟩
    (∀ call ∈ calls, call.KeysOnce) ∧
      ∃ x i, served.request r now = some x ∧ i ∈ x.invocations ∧
        i.context.attribute? "x" = some (.value (.int 3)) ∧
        i.context.attribute? "y" = some (.value (.int 4)) ∧
        i.context.attribute? "z" = none ∧ i.context.attribute? "request" = some (.request r) := by
  intro rest options room calls served r now
  have once : ∀ call ∈ calls, call.KeysOnce := by
    simp only [calls, List.forall_mem_cons]
    refine ⟨trivial, ⟨by decide, ?_⟩, trivial, trivial, ⟨by decide, nofun⟩, ⟨by decide, nofun⟩,
      trivial, nofun⟩
    rintro _ ⟨⟩
    exact Entries.keysOnce_ofFields (by decide)
  obtain ⟨-, -, -, shown⟩ := context_shows_last_shared "f" options room calls once
  let site : Site := ⟨{ catchAll := some rest }, options.healthcheckPath.toList.map .literal,
    options.path.toList.map .literal⟩
  have up : served.site = some site := by
    let s := after { name := "f", options, room } calls.dropLast
    have frame := sameFrame_after { name := "f", options, room } calls.dropLast
    have ready := setUp_of_literal (s := s) rfl rfl (by decide +kernel) (by decide +kernel)
      (by decide +kernel)
    rw [frame.options] at ready
    exact site_of_setUp ready
  have answered := request_of_site up r now
  have runs : 0 < (served.respond site r now).invocations.length := by decide +kernel
  obtain ⟨i, ran⟩ := List.exists_mem_of_length_pos runs
  obtain ⟨-, -, request, -, others⟩ := shown r now _ answered i ran
  refine ⟨once, _, i, answered, ran, ?_, ?_, ?_, request⟩
  · exact others "x" (by decide)
  · exact others "y" (by decide)
  · exact others "z" (by decide)

end Server
end PushDispatch
