import PushDispatch.Dispatch
import PushDispatch.Proofs.Envelope.KnownFields

/-! Two messages that have the same in the fields that decoding reads, dispatched on one table. The
same handler runs for both, or none, with the same envelope, and both come to the same end. The
report on a body that is no envelope quotes the body, so a catch-all can tell the two apart there;
no other handler can at all. -/
namespace PushDispatch

variable {ρ : Type}

/-- The same context, but for what its report quotes. -/
structure Context.Alike (c c' : Context ρ) : Prop where
  bindings : c'.bindings = c.bindings
  decorations : c'.decorations = c.decorations
  request : c'.request = c.request
  validationError : Option.Rel EnvelopeError.Alike c.validationError c'.validationError

structure Invocation.Alike (i i' : Invocation ρ) : Prop where
  handler : i'.handler = i.handler
  envelope : i'.envelope = i.envelope
  context : i.context.Alike i'.context

structure DispatchResult.Alike (r r' : DispatchResult) : Prop where
  outcome : r'.outcome = r.outcome
  handlerIndex : r'.handlerIndex = r.handlerIndex
  catchAll : r'.catchAll = r.catchAll
  error : Option.Rel EnvelopeError.Alike r.error r'.error

abbrev Invocation.EndAlike (i i' : Invocation ρ) : Prop :=
  Corresponds Eq (fun _ _ => True) i.reply i'.reply

/-- The same runs, to results that are alike wherever both have one. Only the replies can make one
fail where the other does not. -/
structure Delivery.Alike (d d' : Delivery ρ) : Prop where
  runs : List.Forall₂ Invocation.Alike d.invocations d'.invocations
  results : ∀ r r', d.outcome = .ok r → d'.outcome = .ok r' → r.Alike r'
  outcome : List.Forall₂ Invocation.EndAlike d.invocations d'.invocations →
    Corresponds Eq DispatchResult.Alike d.outcome d'.outcome

namespace EnvelopeError

theorem Alike.refl (x : EnvelopeError) : x.Alike x := ⟨rfl, rfl, Fault.allAlike_refl _⟩

private theorem rel_refl : ∀ x : Option EnvelopeError, Option.Rel Alike x x
  | none => .none
  | some x => .some (.refl x)

end EnvelopeError

theorem Context.Alike.refl (c : Context ρ) : c.Alike c :=
  ⟨rfl, rfl, rfl, EnvelopeError.rel_refl _⟩

theorem Invocation.Alike.refl (i : Invocation ρ) : i.Alike i := ⟨rfl, rfl, .refl _⟩

theorem Context.Alike.invocation {c c' : Context ρ} (told : c.Alike c') (handler : Handler ρ)
    (e : Envelope) : (Invocation.mk handler e c).Alike ⟨handler, e, c'⟩ := ⟨rfl, rfl, told⟩

theorem DispatchResult.Alike.refl (r : DispatchResult) : r.Alike r :=
  ⟨rfl, rfl, rfl, EnvelopeError.rel_refl _⟩

theorem Delivery.Alike.refl (d : Delivery ρ) : d.Alike d := by
  refine ⟨List.forall₂_same.2 fun i _ => .refl i, fun r r' h h' => ?_, fun _ => ?_⟩
  · cases h.symm.trans h'
    exact .refl r
  · exact .refl (fun _ => rfl) .refl _

namespace Dispatch

theorem exists_of_deliver {i : Invocation ρ} {result : Reply → DispatchResult}
    {log : List LogRecord} {r : DispatchResult} (h : (i.deliver result log).outcome = .ok r) :
    ∃ v, r = result v := by
  have ended := mapError_eq_ok_iff.1 (show (i.reply.map result).mapError _ = .ok r from h)
  generalize i.reply = x at ended
  cases x with
  | error => cases ended
  | ok v => exact ⟨v, (Except.ok.inj ended).symm⟩

theorem alike_deliver {i i' : Invocation ρ} (same : i.Alike i')
    {result result' : Reply → DispatchResult} (alike : ∀ v v', (result v).Alike (result' v'))
    (log log' : List LogRecord) : (i.deliver result log).Alike (i'.deliver result' log') := by
  refine ⟨.cons same .nil, fun r r' h h' => ?_, fun ends => ?_⟩
  · obtain ⟨v, rfl⟩ := exists_of_deliver h
    obtain ⟨v', rfl⟩ := exists_of_deliver h'
    exact alike v v'
  · cases ends with
    | cons ended _ =>
      unfold Invocation.EndAlike at ended
      show Corresponds _ _ ((i.reply.map result).mapError DispatchError.handler)
        ((i'.reply.map result').mapError DispatchError.handler)
      generalize i.reply = x, i'.reply = x' at ended
      cases ended with
      | ok => exact .ok (alike _ _)
      | error same => exact .error (congrArg _ same)

theorem alike_halt (cause : Json.Halt) (context context' : Context ρ) :
    (halt cause context).Alike (halt cause context') := by
  refine ⟨.nil, fun r _ failed _ => ?_, fun _ => .error rfl⟩
  cases show Except.error (DispatchError.halted cause) = .ok r from failed

theorem alike_reject {depth : Nat} (table : Table (Handler ρ)) {raw raw' : Value}
    (salvaged : Envelope.salvage depth raw' = Envelope.salvage depth raw) {x x' : EnvelopeError}
    (same : x.Alike x') (context : Context ρ) :
    (reject depth table raw x context).Alike (reject depth table raw' x' context) := by
  have told : ({ context with validationError := some x } : Context ρ).Alike
      { context with validationError := some x' } := ⟨rfl, rfl, rfl, .some same⟩
  unfold reject
  rw [salvaged]
  cases table.catchAll with
  | some handler =>
    dsimp only
    cases Envelope.salvage depth raw with
    | ok e =>
      refine alike_deliver (told.invocation handler e) (fun v v' => ?_) _ _
      exact ⟨rfl, rfl, rfl, .some same⟩
    | error cause => exact alike_halt cause _ _
  | none =>
    refine ⟨.nil, fun r r' h h' => ?_, fun _ => .ok ⟨rfl, rfl, rfl, .some same⟩⟩
    cases h
    cases h'
    exact ⟨rfl, rfl, rfl, .some same⟩

variable {body body' : Entries}

theorem alike_dispatch (depth : Nat) (same : Envelope.SameKnownFields body body')
    (table : Table (Handler ρ)) (context : Context ρ) :
    (dispatch depth table (.dict body) context).Alike
      (dispatch depth table (.dict body') context) := by
  have decoded := Envelope.corresponds_decode depth same
  unfold dispatch
  generalize Envelope.decode depth (.dict body) = x,
    Envelope.decode depth (.dict body') = x' at decoded
  cases decoded with
  | ok same =>
    subst same
    exact ⟨(Delivery.Alike.refl (deliver table _ context)).runs, (Delivery.Alike.refl _).results,
      (Delivery.Alike.refl _).outcome⟩
  | error stopped =>
    cases stopped with
    | refused alike =>
      have rejected := alike_reject table (Envelope.salvage_congr depth same) alike context
      exact ⟨rejected.runs, rejected.results, rejected.outcome⟩
    | halted cause =>
      have halted := alike_halt cause context context
      exact ⟨halted.runs, halted.results, halted.outcome⟩

/-- Decoding two bodies with the same known fields gives the same envelope or the same error, and
dispatch does the same for both on every table: the one handler that runs, its envelope and the
result. Where there is an envelope nothing differs at all. -/
theorem only_known_fields_matter (depth : Nat) (same : Envelope.SameKnownFields body body') :
    Corresponds (Stop.Alike EnvelopeError.Alike) Eq (Envelope.decode depth (.dict body))
        (Envelope.decode depth (.dict body')) ∧
      ∀ (table : Table (Handler ρ)) (context : Context ρ),
        let d := dispatch depth table (.dict body) context
        let d' := dispatch depth table (.dict body') context
        d.Alike d' ∧ ∀ e, Envelope.decode depth (.dict body) = .ok e →
          d'.invocations = d.invocations ∧ d'.outcome = d.outcome := by
  have decoded := Envelope.corresponds_decode depth same
  refine ⟨decoded, fun table context =>
    ⟨alike_dispatch depth same table context, fun e accepted => ?_⟩⟩
  have accepted' : Envelope.decode depth (.dict body') = .ok e := decoded.eq_ok accepted
  unfold dispatch
  rw [accepted, accepted']
  exact ⟨rfl, rfl⟩

theorem only_known_fields_matter_extra_keys :
    let fields := Entries.ofFields [("data", .dict []), ("message_id", .null)]
    let fields' := Entries.ofFields [("message_id", .null), ("trace", .int 1), ("data", .dict [])]
    let body := Entries.ofFields [("message", .dict fields)]
    let body' := Entries.ofFields [("sender", .str "x"), ("message", .dict fields')]
    let table : Table (Handler Unit) :=
      Table.withCatchAll {} ⟨"rest", fun e _ => .ok (.value e.dataValue)⟩
    Envelope.SameKnownFields body body' ∧
      (dispatch 100 table (.dict body') {}).invocations.map (·.handler.name) = ["rest"] ∧
      Corresponds (Stop.Alike EnvelopeError.Alike) Eq (Envelope.decode 100 (.dict body))
        (Envelope.decode 100 (.dict body')) ∧
      (dispatch 100 table (.dict body) {}).Alike (dispatch 100 table (.dict body') {}) := by
  intro fields fields' body body' table
  have same : Envelope.SameKnownFields body body' := by
    refine ⟨List.forall_mem_singleton.2 rfl, .fields rfl rfl ?_⟩
    show ∀ name ∈ ["messageId", "message_id", "publishTime", "publish_time", "data", "attributes"],
      Entries.field? fields' name = Entries.field? fields name
    simp only [List.forall_mem_cons]
    exact ⟨rfl, rfl, rfl, rfl, rfl, rfl, nofun⟩
  obtain ⟨decoded, dispatched⟩ := only_known_fields_matter 100 same
  exact ⟨same, by decide, decoded, (dispatched table {}).1⟩

end Dispatch
end PushDispatch
