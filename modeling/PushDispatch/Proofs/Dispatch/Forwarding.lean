import PushDispatch.Proofs.Dispatch.Selection
import PushDispatch.Proofs.Envelope.Conformance

/-! Messages that handlers send on. An envelope passes decoding as it is, so what reaches a handler
fits the contract as long as every message does: JSON, or an envelope that was decoded. A salvaged
envelope that is sent on passes too, and then a handler with a condition can be run on an envelope
that fits no contract. -/
namespace PushDispatch.Envelope

/-- The values that come to be dispatched: JSON, and the envelopes that were made of such values
before. -/
inductive Arrives : Value → Prop where
  | json {raw} (json : raw.isJson) : Arrives raw
  | decoded {raw depth e} (earlier : Arrives raw) (accepted : decode depth raw = .ok e) :
    Arrives e.toValue
  | salvaged {raw depth e} (earlier : Arrives raw) (kept : salvage depth raw = .ok e) :
    Arrives e.toValue

/-- An envelope that was salvaged from JSON which lacks more than an envelope can do without. -/
def IsSalvage (raw : Value) : Prop :=
  ∃ (broken : Value) (depth : Nat) (e : Envelope), broken.isJson ∧ ¬ IsSalvageable depth broken ∧
    salvage depth broken = .ok e ∧ raw = e.toValue

variable {depth : Nat} {raw : Value} {e : Envelope}

@[simp] theorem ofValue?_toValue (e : Envelope) : ofValue? e.toValue = some e := by
  obtain ⟨subscription, id, time, data, attributes⟩ := e
  cases data <;> rfl

@[simp] theorem decode_toValue (depth : Nat) (e : Envelope) : decode depth e.toValue = .ok e := by
  unfold decode
  rw [ofValue?_toValue]

theorem eq_of_decode_toValue {e e' : Envelope} (decoded : decode depth e.toValue = .ok e') :
    e' = e := by
  rw [decode_toValue] at decoded
  exact (Except.ok.inj decoded).symm

/-- Nothing can be looked up in an envelope, so nothing is salvaged of it. -/
theorem salvage_toValue (depth : Nat) (e : Envelope) :
    salvage depth e.toValue = salvage depth .null := rfl

/-- Whatever was done to it before, a message is JSON, an envelope that fits the contract, or was
salvaged from JSON. -/
theorem Arrives.origin (arrived : Arrives raw) :
    raw.isJson ∨ (∃ e : Envelope, e.Conforms ∧ raw = e.toValue) ∨
      ∃ (broken : Value) (depth : Nat) (e : Envelope), broken.isJson ∧
        salvage depth broken = .ok e ∧ raw = e.toValue := by
  induction arrived with
  | json json => exact .inl json
  | decoded _ accepted ih =>
    rcases ih with json | ⟨e, conforms, rfl⟩ | ⟨broken, depth, e, json, kept, rfl⟩
    · exact .inr (.inl ⟨_, conforms_of_decode json accepted, rfl⟩)
    · rw [eq_of_decode_toValue accepted]
      exact .inr (.inl ⟨e, conforms, rfl⟩)
    · rw [eq_of_decode_toValue accepted]
      exact .inr (.inr ⟨broken, depth, e, json, kept, rfl⟩)
  | salvaged _ kept ih =>
    apply Or.inr
    apply Or.inr
    rcases ih with json | ⟨e, _, rfl⟩ | ⟨_, _, e, _, _, rfl⟩
    · exact ⟨_, _, _, json, kept, rfl⟩
    · exact ⟨.null, _, _, rfl, salvage_toValue _ e ▸ kept, rfl⟩
    · exact ⟨.null, _, _, rfl, salvage_toValue _ e ▸ kept, rfl⟩

theorem not_conforms_iff_isSalvage (arrived : Arrives raw) (decoded : decode depth raw = .ok e) :
    ¬ e.Conforms ↔ IsSalvage raw := by
  have unfit_iff {broken : Value} {depth : Nat} {e : Envelope} (json : broken.isJson)
      (kept : salvage depth broken = .ok e) : ¬ e.Conforms ↔ ¬ IsSalvageable depth broken := by
    obtain ⟨-, rfl⟩ := salvage_eq_ok_iff.1 kept
    exact (conforms_pieces_iff json).not
  constructor
  · intro unfit
    rcases arrived.origin with json | ⟨e', conforms, rfl⟩ | ⟨broken, depth, e', json, kept, rfl⟩
    · exact absurd (conforms_of_decode json decoded) unfit
    · rw [eq_of_decode_toValue decoded] at unfit
      exact absurd conforms unfit
    · rw [eq_of_decode_toValue decoded] at unfit
      exact ⟨broken, depth, e', json, (unfit_iff json kept).1 unfit, kept, rfl⟩
  · rintro ⟨broken, depth, e', json, unfit, kept, rfl⟩
    rw [eq_of_decode_toValue decoded]
    exact (unfit_iff json kept).2 unfit

end PushDispatch.Envelope

namespace PushDispatch.Dispatch
open Envelope

variable {ρ : Type} {depth : Nat} {table : Table (Handler ρ)} {raw : Value} {context : Context ρ}
  {i : Invocation ρ}

theorem catchAll_of_mem_invocations (broken : ∀ e, decode depth raw ≠ .ok e)
    (ran : i ∈ (dispatch depth table raw context).invocations) :
    ∃ cause, decode depth raw = .error (.refused cause) ∧ table.catchAll = some i.handler := by
  cases decoded : decode depth raw with
  | ok e => exact absurd decoded (broken e)
  | error stop =>
    unfold dispatch at ran
    cases stop with
    | refused cause =>
      simp only [decoded, reject, salvage_of_refused decoded] at ran
      split at ran
      · rename_i handler found
        rw [Invocation.deliver, List.mem_singleton] at ran
        rw [ran]
        exact ⟨cause, rfl, found⟩
      · cases ran
    | halted =>
      simp only [decoded] at ran
      cases ran

/-- An envelope that is decoded of a message, or that a handler is run on, fits the contract unless
the message is itself a salvaged envelope, or the handler is the catch-all and is told what was
wrong with the message. -/
theorem decoded_conforms_unless_salvage (arrived : Arrives raw) (depth : Nat)
    (table : Table (Handler ρ)) (context : Context ρ) :
    (∀ e, decode depth raw = .ok e → (¬ e.Conforms ↔ IsSalvage raw)) ∧
      ∀ i ∈ (dispatch depth table raw context).invocations, ¬ i.envelope.Conforms →
        IsSalvage raw ∧ raw = i.envelope.toValue ∨
          table.catchAll = some i.handler ∧ salvage depth raw = .ok i.envelope ∧
            ∃ cause, decode depth raw = .error (.refused cause) ∧
              i.context.validationError = some cause := by
  refine ⟨fun e decoded => not_conforms_iff_isSalvage arrived decoded, fun i ran unfit => ?_⟩
  obtain ⟨shown, told⟩ := given_of_mem_invocations ran
  by_cases accepted : ∃ e, decode depth raw = .ok e
  · obtain ⟨e, decoded⟩ := accepted
    rw [given, decoded] at shown
    rw [shown] at unfit ⊢
    have salvaged := (not_conforms_iff_isSalvage arrived decoded).1 unfit
    refine .inl ⟨salvaged, ?_⟩
    obtain ⟨broken, _, _, -, -, -, rfl⟩ := salvaged
    rw [eq_of_decode_toValue decoded]
  · obtain ⟨cause, refused, catchAll⟩ := catchAll_of_mem_invocations (not_exists.1 accepted) ran
    rw [given, problem?, refused] at shown told
    refine .inr ⟨catchAll, ?_, cause, refused, by rw [told]⟩
    rw [shown]
    exact salvage_of_refused refused

theorem decoded_conforms_unless_salvage_json :
    let rest : Handler Unit := ⟨"rest", fun _ _ => .ok (.value .null)⟩
    let table : Table (Handler Unit) := { catchAll := some rest }
    let raw := Value.ofFields [("subscription", .str "s"), ("message",
      .ofFields [("messageId", .str "1"), ("attributes", .ofFields [("a", .str "x")])])]
    let e : Envelope := ⟨some "s", some "1", none, some [], [(.str "a", .str "x")]⟩
    Arrives raw ∧ decode 100 raw = .ok e ∧ e.Conforms ∧
      (dispatch 100 table raw {}).invocations.map (·.handler.name) = ["rest"] ∧
      ∀ i ∈ (dispatch 100 table raw {}).invocations, i.envelope.Conforms := by
  intro rest table raw e
  have arrived : Arrives raw := .json (by decide)
  have decoded : decode 100 raw = .ok e := rfl
  have noSalvage : ¬ IsSalvage raw := by
    rintro ⟨broken, _, _, -, -, -, same⟩
    exact Value.noConfusion same
  obtain ⟨fits, ran⟩ := decoded_conforms_unless_salvage arrived 100 table {}
  refine ⟨arrived, decoded, ?_, by decide +kernel, fun i mem => ?_⟩
  · by_contra unfit
    exact noSalvage ((fits e decoded).1 unfit)
  · by_contra unfit
    rcases ran i mem unfit with ⟨salvage, -⟩ | ⟨-, -, cause, refused, -⟩
    · exact noSalvage salvage
    · cases decoded.symm.trans refused

/-- Of a body without a subscription the attributes are salvaged, and sent on they meet a condition:
its handler is run on an envelope that has no subscription and no id. -/
theorem salvage_sent_on_meets_condition :
    let broken := Value.ofFields [("message",
      .ofFields [("attributes", .ofFields [("type", .str "a")])])]
    let typed : Handler Unit := ⟨"typed", fun _ _ => .ok (.value .null)⟩
    let table : Table (Handler Unit) :=
      { rules := [.compile 0 [(.str "attributes", .ofFields [("type", .str "a")])] typed] }
    let part := pieces 100 broken
    (∀ depth e, decode depth broken ≠ .ok e) ∧ salvage 100 broken = .ok part ∧
      Arrives part.toValue ∧ decode 100 part.toValue = .ok part ∧ ¬ part.Conforms ∧
      table.catchAll = none ∧
      (dispatch 100 table part.toValue {}).invocations.map (·.handler.name) = ["typed"] := by
  intro broken typed table part
  have kept : salvage 100 broken = .ok part := rfl
  have arrived : Arrives part.toValue := .salvaged (.json (by decide)) kept
  have unfit : ¬ part.Conforms := by
    intro conforms
    obtain ⟨s, -, subscription⟩ := conforms.subscription
    cases subscription
  exact ⟨nofun, kept, arrived, decode_toValue 100 _, unfit, rfl, by decide +kernel⟩

end PushDispatch.Dispatch
