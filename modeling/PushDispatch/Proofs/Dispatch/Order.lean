import Mathlib.Data.List.FinRange
import Mathlib.Data.List.Induction
import Mathlib.Logic.Equiv.Fin.Rotate
import PushDispatch.Dispatch
import PushDispatch.Proofs.Json.Shape
import PushDispatch.Proofs.Registry.Numbering

/-! The order in which handlers are offered to a new registry. As long as no message meets two of
the conditions and one handler at most comes without any, the order decides about the numbers of
the handlers and about nothing else: a message runs the same handler, to the same end. -/
namespace PushDispatch

namespace Registry

variable {η : Type} {depth : Nat} {offers offers' : List (Offer η)}

def Entry.accepts (a : Entry η) (e : Envelope) : Bool := a.leaves.all (·.holds e.subject)

def Offer.IsFor (depth : Nat) (o : Offer η) (raw : Value) : Prop :=
  ∃ a e, o.brings? = some a ∧ a.isConditional ∧ Envelope.decode depth raw = .ok e ∧ a.accepts e

/-- No message is for both entries. -/
def Entry.Excludes (depth : Nat) (a b : Entry η) : Prop :=
  ∀ raw e, raw.isJson → Envelope.decode depth raw = .ok e → ¬ (a.accepts e ∧ b.accepts e)

theorem Entry.Excludes.symm {a b : Entry η} (h : a.Excludes depth b) : b.Excludes depth a := by
  intro raw e json decoded both
  exact h raw e json decoded both.symm

/-- Entries that ask for different texts at one place exclude each other. -/
theorem Entry.excludes_of_texts {a b : Entry η} {keys : List String} {s t : String}
    (asks : ⟨keys, .str s⟩ ∈ a.leaves) (asks' : ⟨keys, .str t⟩ ∈ b.leaves) (differ : s ≠ t) :
    a.Excludes depth b := by
  have text : ∀ {v : Value} {s : String}, v.matchesLeaf (.str s) → v = .str s := by
    intro v s matched
    cases v <;> simp_all [Value.matchesLeaf, Value.isBool, Value.same, Value.sameNumber,
      Value.extent?]
  intro raw e _ _ ⟨met, met'⟩
  unfold Entry.accepts at met met'
  have holds := List.all_eq_true.1 met _ asks
  have holds' := List.all_eq_true.1 met' _ asks'
  unfold Leaf.holds at holds holds'
  cases found : e.subject.reach? keys with
  | none => simp [found] at holds
  | some v =>
    simp only [found] at holds holds'
    exact differ (Value.str.inj ((text holds).symm.trans (text holds')))

def conditions (offers : List (Offer η)) : List (Entry η) :=
  (offers.filterMap Offer.brings?).filter (·.isConditional)

def fallbacks (offers : List (Offer η)) : List (Entry η) :=
  (offers.filterMap Offer.brings?).filter (!·.isConditional)

def offered (offers : List (Offer η)) : Registry η := offers.foldl offer {}

def numberOf (offers : List (Offer η)) (i : Fin offers.length) : Int :=
  (conditions (offers.take i)).length

def entryOf (rule : Rule η) : Entry η := ⟨rule.handler, rule.leaves⟩

structure Holds (r : Registry η) (offers : List (Offer η)) : Prop where
  opened : r.state = .opened
  rules : r.table.rules.map entryOf = conditions offers
  catchAll : r.table.catchAll = (fallbacks offers).head?.map (·.handler)
  numbered : r.IsNumbered

theorem Holds.enter {r : Registry η} (h : r.Holds offers) {o : Offer η} {a : Entry η}
    (brings : o.brings? = some a) : (r.enter a).Holds (offers ++ [o]) := by
  refine ⟨(r.state_enter a).trans h.opened, ?_, ?_, h.numbered.enter a⟩
  · unfold Registry.enter
    split
    · rename_i asks
      simp [Table.extend, entryOf, conditions, brings, asks, h.rules]
    · rename_i bare
      have kept : conditions (offers ++ [o]) = conditions offers := by
        simp [conditions, brings, bare]
      rw [kept, ← h.rules]
      split <;> rfl
  · unfold Registry.enter
    split
    · rename_i asks
      have kept : fallbacks (offers ++ [o]) = fallbacks offers := by
        simp [fallbacks, brings, asks]
      rw [kept, ← h.catchAll]
      rfl
    · rename_i bare
      have last : fallbacks (offers ++ [o]) = fallbacks offers ++ [a] := by
        simp [fallbacks, brings, bare]
      have taken := h.catchAll
      rw [taken, last]
      cases before : fallbacks offers with
      | nil => rfl
      | cons first others =>
        rw [before] at taken
        exact taken

theorem Holds.offer {r : Registry η} (h : r.Holds offers) (o : Offer η) :
    (r.offer o).Holds (offers ++ [o]) := by
  rw [offer_of_opened h.opened]
  cases brings : o.brings? with
  | none =>
    refine ⟨h.opened, ?_, ?_, h.numbered⟩
    · simp [h.rules, conditions, brings]
    · simp [h.catchAll, fallbacks, brings]
  | some a => exact h.enter brings

theorem holds_offered (offers : List (Offer η)) : (offered offers).Holds offers := by
  induction offers using List.reverseRecOn with
  | nil => exact ⟨rfl, rfl, rfl, isNumbered_empty⟩
  | append_singleton offers o ih =>
    unfold offered
    rw [List.foldl_concat]
    exact ih.offer o

private theorem conditions_split {i : Fin offers.length} {a : Entry η}
    (brings : offers[i].brings? = some a) (asks : a.isConditional) :
    conditions offers = conditions (offers.take i) ++ a :: conditions (offers.drop (i + 1)) := by
  have parts : offers = offers.take i ++ offers[i] :: offers.drop (i + 1) := by
    rw [Fin.getElem_fin, ← List.drop_eq_getElem_cons i.isLt, List.take_append_drop]
  calc conditions offers
      = conditions (offers.take i ++ offers[i] :: offers.drop (i + 1)) := congrArg conditions parts
    _ = _ := by
      unfold conditions
      rw [List.filterMap_append, List.filter_append, List.filterMap_cons_some brings,
        List.filter_cons_of_pos asks]

theorem exists_place {a : Entry η} (mem : a ∈ conditions offers) :
    ∃ i : Fin offers.length, offers[i].brings? = some a ∧ a.isConditional := by
  unfold conditions at mem
  obtain ⟨entered, asks⟩ := List.mem_filter.1 mem
  obtain ⟨o, here, brings⟩ := List.mem_filterMap.1 entered
  obtain ⟨i, h, rfl⟩ := List.mem_iff_getElem.1 here
  exact ⟨⟨i, h⟩, brings, asks⟩

theorem excludes_of_lt (exclusive : (conditions offers).Pairwise (Entry.Excludes depth))
    {i j : Fin offers.length} (before : i < j) {a b : Entry η} (brings : offers[i].brings? = some a)
    (asks : a.isConditional) (brings' : offers[j].brings? = some b) (asks' : b.isConditional) :
    a.Excludes depth b := by
  have later : offers[j] ∈ offers.drop (i + 1) := by
    rw [List.mem_drop_iff_getElem]
    refine ⟨j - (i + 1), by omega, ?_⟩
    congr 1
    omega
  rw [conditions_split brings asks, List.pairwise_append, List.pairwise_cons] at exclusive
  apply exclusive.2.1.1 b
  exact List.mem_filter.2 ⟨List.mem_filterMap.2 ⟨offers[j], later, brings'⟩, asks'⟩

/-- Where the conditions exclude each other, a message is for one offer at most. -/
theorem place_unique (exclusive : (conditions offers).Pairwise (Entry.Excludes depth)) {raw : Value}
    (json : raw.isJson) {i j : Fin offers.length} (first : offers[i].IsFor depth raw)
    (second : offers[j].IsFor depth raw) : i = j := by
  obtain ⟨a, e, brings, asks, decoded, met⟩ := first
  obtain ⟨b, e', brings', asks', decoded', met'⟩ := second
  cases decoded.symm.trans decoded'
  rcases lt_trichotomy i j with before | same | after
  · have excludes := excludes_of_lt exclusive before brings asks brings' asks'
    exact absurd ⟨met, met'⟩ (excludes raw e json decoded)
  · exact same
  · have excludes := excludes_of_lt exclusive after brings' asks' brings asks
    exact absurd ⟨met', met⟩ (excludes raw e json decoded)

variable {r : Registry η} {e : Envelope}

/-- Where the conditions exclude each other, the place of the one that a message meets does not
matter: its rule is found by its number. -/
theorem Holds.resolve?_eq_some (h : r.Holds offers)
    (exclusive : (conditions offers).Pairwise (Entry.Excludes depth)) {raw : Value}
    (json : raw.isJson)
    (decoded : Envelope.decode depth raw = .ok e) {i : Fin offers.length} {a : Entry η}
    (brings : offers[i].brings? = some a) (asks : a.isConditional) (met : a.accepts e) :
    r.table.resolve? e = some (numberOf offers i) ∧
      r.table.handlerAt? (numberOf offers i) = some a.handler := by
  have split := conditions_split brings asks
  obtain ⟨before, others, rules, first, last⟩ := List.map_eq_append_iff.1 (h.rules.trans split)
  obtain ⟨rule, after, rfl, rfl, -⟩ := List.map_eq_cons_iff.1 last
  have number : (before.length : Int) = numberOf offers i := by
    unfold numberOf
    rw [← first, List.length_map]
  rw [split, List.pairwise_append] at exclusive
  rw [← number]
  apply h.numbered.table.resolve?_of_split rules ?_ met
  intro other earlier accepts
  have here : entryOf other ∈ conditions (offers.take i) := by
    rw [← first]
    exact List.mem_map_of_mem earlier
  exact exclusive.2.2 _ here _ List.mem_cons_self raw e json decoded ⟨accepts, met⟩

theorem Holds.resolve?_eq_none (h : r.Holds offers)
    (unmet : ∀ a ∈ conditions offers, ¬ a.accepts e) : r.table.resolve? e = none := by
  rw [Table.resolve?_eq_none_iff]
  intro rule mem
  apply unmet (entryOf rule)
  rw [← h.rules]
  exact List.mem_map_of_mem mem

private theorem perm_of_equiv (σ : Fin offers.length ≃ Fin offers'.length)
    (same : ∀ i, offers'[σ i] = offers[i]) : offers.Perm offers' := by
  have reordered : ∀ {n m : Nat} (f : Fin n → Offer η) (g : Fin m → Offer η) (σ : Fin n ≃ Fin m),
      (∀ i, g (σ i) = f i) → (List.ofFn f).Perm (List.ofFn g) := by
    intro n m f g σ same
    obtain rfl := Fin.equiv_iff_eq.1 ⟨σ⟩
    have composed : f = g ∘ σ := by
      funext i
      exact (same i).symm
    rw [composed]
    exact Equiv.Perm.ofFn_comp_perm σ g
  have perm := reordered (fun i => offers[i]) (fun i => offers'[i]) σ same
  simpa using perm

theorem conditions_perm (perm : offers.Perm offers') :
    (conditions offers).Perm (conditions offers') :=
  (perm.filterMap _).filter _

theorem fallbacks_eq_of_perm (perm : offers.Perm offers')
    (single : (fallbacks offers).length ≤ 1) : fallbacks offers' = fallbacks offers := by
  have reordered : (fallbacks offers').Perm (fallbacks offers) :=
    ((perm.filterMap _).filter _).symm
  cases rest : fallbacks offers with
  | nil =>
    rw [rest] at reordered
    exact reordered.eq_nil
  | cons a others =>
    have alone : others = [] := by
      rw [rest, List.length_cons] at single
      exact List.eq_nil_of_length_eq_zero (by omega)
    rw [rest, alone, List.perm_singleton] at reordered
    rw [reordered, alone]

theorem freeze_outcome (opened : r.state = .opened) :
    r.freeze.outcome = if r.table.isEmpty then .error .noHandlers else .ok r.table := by
  unfold freeze
  rw [opened, if_neg (by decide)]
  split <;> rfl

theorem Holds.isEmpty_eq_of_perm {r' : Registry η} (h : r.Holds offers) (h' : r'.Holds offers')
    (perm : offers.Perm offers') (catchAll : r'.table.catchAll = r.table.catchAll) :
    r'.table.isEmpty = r.table.isEmpty := by
  have sizes : r'.table.rules.length = r.table.rules.length := by
    have lengths := (conditions_perm perm).length_eq
    rwa [← h.rules, ← h'.rules, List.length_map, List.length_map, eq_comm] at lengths
  have rules : r'.table.rules.isEmpty = r.table.rules.isEmpty := by
    rw [Bool.eq_iff_iff, List.isEmpty_iff_length_eq_zero, List.isEmpty_iff_length_eq_zero, sizes]
  unfold Table.isEmpty
  rw [rules, catchAll]

theorem Holds.freeze_of_perm {r' : Registry η} (h : r.Holds offers) (h' : r'.Holds offers')
    (perm : offers.Perm offers') (catchAll : r'.table.catchAll = r.table.catchAll)
    {table : Table η} (frozen : r.freeze.outcome = .ok table) :
    r.table = table ∧ r'.freeze.outcome = .ok r'.table := by
  rw [freeze_outcome h.opened] at frozen
  rw [freeze_outcome h'.opened, h.isEmpty_eq_of_perm h' perm catchAll]
  split at frozen
  · cases frozen
  · rename_i held
    rw [if_neg held]
    exact ⟨Except.ok.inj frozen, rfl⟩

end Registry

def DispatchResult.at (result : DispatchResult) (index : Option Int) : DispatchResult :=
  { result with handlerIndex := index }

namespace Dispatch
open Registry

variable {ρ : Type} {depth : Nat} {table table' : Table (Handler ρ)} {e : Envelope}

theorem deliver_of_resolve? {k : Int} {handler : Handler ρ}
    (found : table.resolve? e = some k) (here : table.handlerAt? k = some handler)
    (context : Context ρ) :
    (deliver table e context).invocations = [⟨handler, e, context⟩] ∧
      (deliver table e context).context = context ∧
      (deliver table e context).outcome
        = (((handler.run e context).map fun value =>
            ({ outcome := .handled, value } : DispatchResult)).mapError DispatchError.handler).map
              (·.at (some k)) := by
  unfold deliver
  simp only [found, here]
  refine ⟨rfl, rfl, ?_⟩
  unfold Invocation.deliver Invocation.reply
  cases handler.run e context <;> rfl

theorem deliver_of_unresolved (unresolved : table.resolve? e = none) (context : Context ρ) :
    deliver table e context = deliver { catchAll := table.catchAll } e context ∧
      (deliver table e context).outcome.map (·.at none) = (deliver table e context).outcome := by
  unfold deliver
  rw [unresolved]
  constructor
  · rfl
  · cases table.catchAll with
    | none => rfl
    | some handler =>
      simp only [Invocation.deliver, Invocation.reply]
      cases handler.run e context <;> rfl

theorem reject_outcome (depth : Nat) (table : Table (Handler ρ)) (raw : Value)
    (cause : EnvelopeError)
    (context : Context ρ) :
    (reject depth table raw cause context).outcome.map (·.at none)
      = (reject depth table raw cause context).outcome := by
  unfold reject
  cases table.catchAll with
  | none => rfl
  | some handler =>
    dsimp only
    cases Envelope.salvage depth raw with
    | error => rfl
    | ok e =>
      simp only [Invocation.deliver, Invocation.reply]
      cases handler.run e { context with validationError := some cause } <;> rfl

variable {offers offers' : List (Offer (Handler ρ))} {σ : Fin offers.length ≃ Fin offers'.length}
  {raw : Value} {d d' : Delivery ρ}

/-- Two deliveries of a message that differ by the number alone. A number is told where the message
is for an offer with a condition, whose handler runs then, and is that of the offer in either
order. -/
structure SameRun (depth : Nat) (σ : Fin offers.length ≃ Fin offers'.length) (raw : Value)
    (d d' : Delivery ρ) : Prop where
  invocations : d'.invocations = d.invocations
  context : d'.context = d.context
  outcome : ∃ (chosen : Option (Fin offers.length)) (outcome : Except DispatchError DispatchResult),
    (∀ i, i ∈ chosen ↔ offers[i].IsFor depth raw) ∧
    (∀ i ∈ chosen, ∃ a, offers[i].brings? = some a ∧
      d.invocations.map (·.handler) = [a.handler]) ∧
    d.outcome = outcome.map (·.at (chosen.map (numberOf offers))) ∧
    d'.outcome = outcome.map (·.at (chosen.map fun i => numberOf offers' (σ i)))

theorem SameRun.of_nowhere (nowhere : ∀ i : Fin offers.length, ¬ offers[i].IsFor depth raw)
    (unnumbered : d.outcome.map (·.at none) = d.outcome) : SameRun depth σ raw d d := by
  refine ⟨rfl, rfl, none, d.outcome, fun i => ⟨nofun, fun isFor => absurd isFor (nowhere i)⟩, nofun,
    ?_, ?_⟩
  · exact unnumbered.symm
  · exact unnumbered.symm

theorem sameRun_reject (broken : ∀ e, Envelope.decode depth raw ≠ .ok e)
    (catchAll : table'.catchAll = table.catchAll) (cause : EnvelopeError) (context : Context ρ) :
    SameRun depth σ raw (reject depth table raw cause context)
      (reject depth table' raw cause context) := by
  have rejected : reject depth table' raw cause context = reject depth table raw cause context := by
    unfold reject
    rw [catchAll]
  rw [rejected]
  apply SameRun.of_nowhere _ (reject_outcome depth table raw cause context)
  intro i ⟨_, e, _, _, decoded, _⟩
  exact broken e decoded

theorem sameRun_halt (broken : ∀ e, Envelope.decode depth raw ≠ .ok e) (cause : Json.Halt)
    (context : Context ρ) : SameRun depth σ raw (halt cause context) (halt cause context) := by
  apply SameRun.of_nowhere _ rfl
  intro i ⟨_, e, _, _, decoded, _⟩
  exact broken e decoded

theorem sameRun_of_isFor (h : (offered offers).Holds offers) (h' : (offered offers').Holds offers')
    (same : ∀ i, offers'[σ i] = offers[i])
    (exclusive : (conditions offers).Pairwise (Entry.Excludes depth))
    (exclusive' : (conditions offers').Pairwise (Entry.Excludes depth)) (json : raw.isJson)
    (decoded : Envelope.decode depth raw = .ok e) {i : Fin offers.length}
    (isFor : offers[i].IsFor depth raw)
    (context : Context ρ) :
    SameRun depth σ raw (deliver (offered offers).table e context)
      (deliver (offered offers').table e context) := by
  obtain ⟨a, e', brings, asks, decoded', met⟩ := isFor
  cases decoded.symm.trans decoded'
  have brings' : offers'[σ i].brings? = some a := by rw [same, brings]
  obtain ⟨found, here⟩ := h.resolve?_eq_some exclusive json decoded brings asks met
  obtain ⟨found', here'⟩ := h'.resolve?_eq_some exclusive' json decoded brings' asks met
  obtain ⟨invocations, after, outcome⟩ := deliver_of_resolve? found here context
  obtain ⟨invocations', after', outcome'⟩ := deliver_of_resolve? found' here' context
  refine ⟨invocations'.trans invocations.symm, after'.trans after.symm, some i, _, fun j => ?_,
    fun j here => ?_, outcome, outcome'⟩
  · rw [Option.mem_some_iff]
    constructor
    · rintro rfl
      exact ⟨a, e, brings, asks, decoded, met⟩
    · exact place_unique exclusive json ⟨a, e, brings, asks, decoded, met⟩
  · cases here
    refine ⟨a, brings, ?_⟩
    rw [invocations]
    rfl

theorem sameRun_of_nowhere (h : (offered offers).Holds offers)
    (h' : (offered offers').Holds offers') (perm : offers.Perm offers')
    (catchAll : (offered offers').table.catchAll = (offered offers).table.catchAll)
    (decoded : Envelope.decode depth raw = .ok e)
    (nowhere : ∀ i : Fin offers.length, ¬ offers[i].IsFor depth raw) (context : Context ρ) :
    SameRun depth σ raw (deliver (offered offers).table e context)
      (deliver (offered offers').table e context) := by
  have unmet : ∀ a ∈ conditions offers, ¬ a.accepts e := by
    intro a mem met
    obtain ⟨i, brings, asks⟩ := exists_place mem
    exact nowhere i ⟨a, e, brings, asks, decoded, met⟩
  have unmet' : ∀ a ∈ conditions offers', ¬ a.accepts e := fun a mem =>
    unmet a ((conditions_perm perm).mem_iff.2 mem)
  obtain ⟨rest, outcome⟩ := deliver_of_unresolved (h.resolve?_eq_none unmet) context
  obtain ⟨rest', -⟩ := deliver_of_unresolved (h'.resolve?_eq_none unmet') context
  have delivered : deliver (offered offers').table e context
      = deliver (offered offers).table e context := by
    rw [rest', rest, catchAll]
  rw [delivered]
  exact .of_nowhere nowhere outcome

/-- Dispatch after the same offers in two orders: the same handler runs, with the same envelope and
context, and all that is told differs by the number alone. -/
theorem dispatch_permuted (depth : Nat) (σ : Fin offers.length ≃ Fin offers'.length)
    (same : ∀ i, offers'[σ i] = offers[i]) (single : (fallbacks offers).length ≤ 1)
    (exclusive : (conditions offers).Pairwise (Entry.Excludes depth))
    (frozen : (offered offers).freeze.outcome = .ok table) :
    ∃ table', (offered offers').freeze.outcome = .ok table' ∧
      ∀ raw, raw.isJson → ∀ context : Context ρ,
        SameRun depth σ raw (dispatch depth table raw context)
          (dispatch depth table' raw context) := by
  have h := holds_offered offers
  have h' := holds_offered offers'
  have perm := perm_of_equiv σ same
  have exclusive' := (conditions_perm perm).pairwise_iff Entry.Excludes.symm |>.1 exclusive
  have catchAll : (offered offers').table.catchAll = (offered offers).table.catchAll := by
    rw [h'.catchAll, h.catchAll, fallbacks_eq_of_perm perm single]
  -- only an empty registry cannot be frozen, and a permuted one is empty with the other
  obtain ⟨rfl, frozen'⟩ := h.freeze_of_perm h' perm catchAll frozen
  refine ⟨_, frozen', fun raw json context => ?_⟩
  unfold dispatch
  cases decoded : Envelope.decode depth raw with
  | error stop =>
    have broken : ∀ e, Envelope.decode depth raw ≠ .ok e := by
      rw [decoded]
      nofun
    cases stop with
    | refused cause =>
      have alike := sameRun_reject (σ := σ) broken catchAll cause context
      exact ⟨alike.invocations, alike.context, alike.outcome⟩
    | halted cause =>
      have alike := sameRun_halt (σ := σ) broken cause context
      exact ⟨alike.invocations, alike.context, alike.outcome⟩
  | ok e =>
    have alike : SameRun depth σ raw (deliver (offered offers).table e context)
        (deliver (offered offers').table e context) := by
      by_cases somewhere : ∃ i : Fin offers.length, offers[i].IsFor depth raw
      · obtain ⟨i, isFor⟩ := somewhere
        exact sameRun_of_isFor h h' same exclusive exclusive' json decoded isFor context
      · have nowhere := not_exists.1 somewhere
        exact sameRun_of_nowhere h h' perm catchAll decoded nowhere context
    exact ⟨alike.invocations, alike.context, alike.outcome⟩

theorem dispatch_permuted_three_offers :
    let rest : Offer (Handler Unit) :=
      ⟨.handler "rest" ⟨"rest", fun _ _ => .ok (.value .null)⟩, .null⟩
    let typed (name : String) : Offer (Handler Unit) :=
      ⟨.handler name ⟨name, fun e _ => .ok (.value e.dataValue)⟩,
        .ofFields [("attributes", .ofFields [("type", .str name)])]⟩
    let offers := [rest, typed "a", typed "b"]
    let offers' := [typed "b", rest, typed "a"]
    let table := (offered offers).table
    let raw := Value.ofFields [("subscription", .str "s"), ("message",
      .ofFields [("messageId", .str "1"), ("attributes", .ofFields [("type", .str "b")])])]
    (fallbacks offers).length ≤ 1 ∧ (conditions offers).Pairwise (Entry.Excludes 100) ∧
      (offered offers).freeze.outcome = .ok table ∧ raw.isJson ∧
      (dispatch 100 table raw {}).invocations.map (·.handler.name) = ["b"] ∧
      ∃ table', (offered offers').freeze.outcome = .ok table' ∧
        (dispatch 100 table' raw {}).invocations = (dispatch 100 table raw {}).invocations := by
  intro rest typed offers offers' table raw
  have single : (fallbacks offers).length ≤ 1 := by decide
  have exclusive : (conditions offers).Pairwise (Entry.Excludes 100) := by
    let asking (name : String) : Entry (Handler Unit) :=
      ⟨⟨name, fun e _ => .ok (.value e.dataValue)⟩, [⟨["attributes", "type"], .str name⟩]⟩
    show [asking "a", asking "b"].Pairwise (Entry.Excludes 100)
    apply List.pairwise_pair.2
    exact Entry.excludes_of_texts List.mem_cons_self List.mem_cons_self (by decide)
  have frozen : (offered offers).freeze.outcome = .ok table := rfl
  let σ : Fin offers.length ≃ Fin offers'.length := finRotate 3
  have same : ∀ i : Fin 3, offers'[σ i] = offers[i]
    | 0 | 1 | 2 => rfl
  obtain ⟨table', frozen', alike⟩ := dispatch_permuted 100 σ same single exclusive frozen
  have run := alike raw (by decide) {}
  exact ⟨single, exclusive, frozen, by decide, by decide +kernel, table', frozen', run.invocations⟩

end Dispatch
end PushDispatch
