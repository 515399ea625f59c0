import PushDispatch.Proofs.Envelope.Contract

/-! Reports of breaches, put together from the reports of single checks, and what it means that a
check settles some of the requirements. -/
namespace PushDispatch.Envelope

def among (these : Requirement → Prop) (breach : Requirement → Fault → Prop) (q : Requirement)
    (f : Fault) : Prop := these q ∧ breach q f

namespace Reports

variable {breach : Requirement → Fault → Prop}

theorem nil (met : ∀ q f, ¬ breach q f) : Reports breach [] :=
  ⟨[], .nil, fun q => ⟨nofun, fun ⟨f, h⟩ => absurd h (met q f)⟩, .nil⟩

theorem single {q : Requirement} {f : Fault} (h : breach q f) :
    Reports (among (· = q) breach) [f] := by
  refine ⟨[q], List.pairwise_singleton _ q, fun p => ?_, .cons ⟨rfl, h⟩ .nil⟩
  rw [List.mem_singleton]
  exact ⟨fun same => ⟨f, same, same ▸ h⟩, fun ⟨_, same, _⟩ => same⟩

theorem congr {other : Requirement → Fault → Prop} {details : List Fault}
    (same : ∀ q f, breach q f ↔ other q f) (h : Reports breach details) :
    Reports other details := by
  have breach_eq : breach = other := funext fun q => funext fun f => propext (same q f)
  rwa [breach_eq] at h

theorem map (g : Fault → Fault) {details : List Fault} (h : Reports breach details) :
    Reports (fun q f => ∃ f', breach q f' ∧ f = g f') (details.map g) := by
  obtain ⟨breached, sorted, mem, details⟩ := h
  refine ⟨breached, sorted, fun q => ?_, List.forall₂_map_right_iff.2 ?_⟩
  · rw [mem]
    exact ⟨fun ⟨f, hf⟩ => ⟨g f, f, hf, rfl⟩, fun ⟨_, f, hf, _⟩ => ⟨f, hf⟩⟩
  · exact details.imp fun q f hf => ⟨f, hf, rfl⟩

theorem among_congr {these those : Requirement → Prop} {details : List Fault}
    (same : ∀ q f, breach q f → (these q ↔ those q)) (h : Reports (among these breach) details) :
    Reports (among those breach) details :=
  h.congr fun q f => and_congr_left (same q f)

theorem not_breach_of_nil (h : Reports breach []) (q : Requirement) (f : Fault) : ¬ breach q f := by
  obtain ⟨breached, -, mem, details⟩ := h
  obtain rfl := List.forall₂_nil_right_iff.1 details
  exact fun hf => nomatch (mem q).2 ⟨f, hf⟩

theorem exists_breach {details : List Fault} (h : Reports breach details) (some : details ≠ []) :
    ∃ q f, breach q f := by
  obtain ⟨breached, -, -, paired⟩ := h
  cases paired with
  | nil => exact absurd rfl some
  | cons here _ => exact ⟨_, _, here⟩

theorem append {later : Requirement → Fault → Prop} {xs ys : List Fault}
    (order : ∀ p f q g, breach p f → later q g → p.place < q.place) (hx : Reports breach xs)
    (hy : Reports later ys) : Reports (fun q f => breach q f ∨ later q f) (xs ++ ys) := by
  obtain ⟨ps, sorted, mem, details⟩ := hx
  obtain ⟨qs, sorted', mem', details'⟩ := hy
  refine ⟨ps ++ qs, List.pairwise_append.2 ⟨sorted, sorted', ?_⟩, fun q => ?_,
    List.rel_append (details.imp fun _ _ => .inl) (details'.imp fun _ _ => .inr)⟩
  · intro p hp q hq
    obtain ⟨f, hf⟩ := (mem p).1 hp
    obtain ⟨g, hg⟩ := (mem' q).1 hq
    exact order p f q g hf hg
  · rw [List.mem_append, mem, mem', exists_or]

theorem unique (functional : Relator.RightUnique breach) {xs ys : List Fault}
    (hx : Reports breach xs) (hy : Reports breach ys) : xs = ys := by
  obtain ⟨ps, sorted, mem, details⟩ := hx
  obtain ⟨qs, sorted', mem', details'⟩ := hy
  have nodup {rs : List Requirement} (sorted : rs.Pairwise (·.place < ·.place)) : rs.Nodup :=
    sorted.imp fun {p q} (lt : p.place < q.place) =>
      ne_of_apply_ne Requirement.place (Nat.ne_of_lt lt)
  have perm : ps.Perm qs := by
    refine (List.perm_ext_iff_of_nodup (nodup sorted) (nodup sorted')).2 fun q => ?_
    rw [mem, mem']
  have same : ps = qs := by
    refine perm.eq_of_pairwise (fun p q _ _ lt gt => ?_) sorted sorted'
    omega
  subst same
  exact functional.forall₂ details details'

end Reports

/-- The check of some requirements, where `holds` tells the value that meets them: it succeeds with
the one such value or reports every breach. -/
inductive Settles {α : Type} (breach : Requirement → Fault → Prop) (holds : α → Prop) :
    Checked α → Prop where
  | met {a} (unique : ∀ b, holds b ↔ b = a) (none : ∀ q f, ¬ breach q f) :
      Settles breach holds (.ok a)
  | breached {found} (some : found ≠ []) (unmet : ∀ b, ¬ holds b) (report : Reports breach found) :
      Settles breach holds (.error found)

namespace Settles

variable {α : Type} {breach : Requirement → Fault → Prop} {holds : α → Prop} {c : Checked α}

theorem eq_ok_iff (h : Settles breach holds c) {a : α} : c = .ok a ↔ holds a := by
  cases h with
  | met unique _ => rw [unique, Except.ok.injEq, eq_comm]
  | breached _ unmet _ => simp [unmet]

theorem ne_nil (h : Settles breach holds c) {found : List Fault} (refused : c = .error found) :
    found ≠ [] := by
  cases h with
  | met => cases refused
  | breached some _ _ =>
    cases refused
    exact some

theorem exists_holds_iff (h : Settles breach holds c) :
    (∃ a, holds a) ↔ ∀ q f, ¬ breach q f := by
  cases h with
  | met unique none => exact iff_of_true ⟨_, (unique _).2 rfl⟩ none
  | breached some unmet report =>
    obtain ⟨q, f, breach⟩ := report.exists_breach some
    exact iff_of_false (fun ⟨a, ha⟩ => unmet a ha) fun none => none q f breach

theorem one {q : Requirement} {f : Fault} (unmet : ∀ b, ¬ holds b) (h : breach q f) :
    Settles (among (· = q) breach) holds (.error [f]) :=
  .breached (by simp) unmet (.single h)

end Settles

end PushDispatch.Envelope
