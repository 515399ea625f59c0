import Mathlib.Data.List.Forall2
import PushDispatch.Envelope.Decode
import PushDispatch.Proofs.Except

/-! The fields that decoding reads. Two bodies that have the same there decode alike, whatever else
is in them and in whatever order: to the same envelope, or to reports of the same faults. A report
quotes the mapping that lacks a field, and only there do the other keys show. -/
namespace PushDispatch

/-- The same fault; what lacks a field may be another value. -/
structure Fault.Alike (f f' : Fault) : Prop where
  cause : f'.cause = f.cause
  loc : f'.loc = f.loc
  input : f.cause ≠ .missing → f'.input = f.input

abbrev Fault.AllAlike : List Fault → List Fault → Prop := List.Forall₂ Fault.Alike

structure EnvelopeError.Alike (x x' : EnvelopeError) : Prop where
  reason : x'.reason = x.reason
  message : x'.message = x.message
  details : Fault.AllAlike x.details x'.details

inductive Stop.Alike {ε : Type} (E : ε → ε → Prop) : Stop ε → Stop ε → Prop where
  | refused {e e' : ε} (related : E e e') : Alike E (.refused e) (.refused e')
  | halted (cause : Json.Halt) : Alike E (.halted cause) (.halted cause)

namespace Fault

variable {f f' : Fault} {fs fs' : List Fault}

theorem Alike.refl (f : Fault) : f.Alike f := ⟨rfl, rfl, fun _ => rfl⟩

theorem alike_missing (name : String) (v v' : Value) :
    (ofField .missing name v).Alike (ofField .missing name v') :=
  ⟨rfl, rfl, fun present => absurd rfl present⟩

theorem Alike.within (h : f.Alike f') (name : String) : (f.within name).Alike (f'.within name) :=
  ⟨h.cause, congrArg (_ :: ·) h.loc, h.input⟩

theorem allAlike_refl (fs : List Fault) : AllAlike fs fs :=
  List.forall₂_same.2 fun f _ => .refl f

theorem AllAlike.append (h : AllAlike fs fs') (more : List Fault) :
    AllAlike (fs ++ more) (fs' ++ more) :=
  List.rel_append h (allAlike_refl more)

theorem AllAlike.within (h : AllAlike fs fs') (name : String) :
    AllAlike (fs.map (Fault.within name)) (fs'.map (Fault.within name)) :=
  List.rel_map (fun _ _ alike => alike.within name) h

theorem AllAlike.any_missing (h : AllAlike fs fs') :
    fs'.any (·.cause == .missing) = fs.any (·.cause == .missing) := by
  induction h with
  | nil => rfl
  | cons alike _ ih => rw [List.any_cons, List.any_cons, alike.cause, ih]

theorem AllAlike.headline_eq (h : AllAlike fs fs') (kind : String) :
    headline fs' kind = headline fs kind := by
  rw [headline, headline, h.length_eq]

end Fault

theorem EnvelopeError.alike_faults {found found' : List Fault} (h : Fault.AllAlike found found') :
    (EnvelopeError.faults found).Alike (.faults found') := by
  refine ⟨?_, ?_, h⟩
  · unfold reason details
    rw [h.any_missing]
  · exact congrArg ("envelope validation failed: " ++ ·) (h.headline_eq "PushEnvelope")

namespace Checked

variable {α : Type} {x x' : Checked α}

abbrev Alike : Checked α → Checked α → Prop := Corresponds Fault.AllAlike Eq

theorem Alike.refl (x : Checked α) : Alike x x :=
  Corresponds.refl Fault.allAlike_refl (fun _ => rfl) x

theorem Alike.faults (h : Alike x x') : Fault.AllAlike (Checked.faults x) (Checked.faults x') := by
  cases h with
  | ok => exact .nil
  | error alike => exact alike

end Checked

namespace Envelope

def SameAt (names : List String) (entries entries' : Entries) : Prop :=
  ∀ name ∈ names, Entries.field? entries' name = Entries.field? entries name

def messageNames : List String := idNames ++ timeNames ++ ["data", "attributes"]

/-- The two bodies have the same in the fields that are known; a message may have any others. -/
inductive SameMessage (body body' : Entries) : Prop where
  | whole (same : SameAt ["message"] body body')
  | fields {fields fields' : Entries}
      (message : Entries.field? body "message" = some (.dict fields))
      (message' : Entries.field? body' "message" = some (.dict fields'))
      (same : SameAt messageNames fields fields')

structure SameKnownFields (body body' : Entries) : Prop where
  subscription : SameAt ["subscription"] body body'
  message : SameMessage body body'

variable {depth : Nat} {body body' fields fields' : Entries}

theorem SameAt.field? {names : List String} (h : SameAt names fields fields') {name : String}
    (mem : name ∈ names := by decide) :
    Entries.field? fields' name = Entries.field? fields name := h name mem

theorem SameAt.firstField? {names : List String} (h : SameAt names fields fields') :
    firstField? fields' names = firstField? fields names := by
  induction names with
  | nil => rfl
  | cons name names ih =>
    rw [Envelope.firstField?, Envelope.firstField?, h name List.mem_cons_self,
      ih fun other mem => h other (List.mem_cons_of_mem _ mem)]

theorem alike_checkSubscription (same : SameAt ["subscription"] body body') :
    (checkSubscription body).Alike (checkSubscription body') := by
  unfold checkSubscription
  rw [same.field?]
  split
  · exact .error (.cons (Fault.alike_missing _ _ _) .nil)
  all_goals exact .refl _

theorem alike_checkId (message message' : Value) (same : SameAt idNames fields fields') :
    (checkId message fields).Alike (checkId message' fields') := by
  unfold checkId
  rw [same.firstField?]
  split
  · exact .error (.cons (Fault.alike_missing _ _ _) .nil)
  all_goals exact .refl _

theorem checkTime_congr (same : SameAt timeNames fields fields') :
    checkTime fields' = checkTime fields := by
  rw [checkTime, checkTime, same.firstField?]

theorem checkData_congr (same : SameAt ["data"] fields fields') :
    checkData depth fields' = checkData depth fields := by
  rw [checkData, checkData, same.field?]

theorem checkAttributes_congr (same : SameAt ["attributes"] fields fields') :
    checkAttributes fields' = checkAttributes fields := by
  rw [checkAttributes, checkAttributes, same.field?]

theorem SameAt.mono {names more : List String} (h : SameAt more fields fields')
    (some : names ⊆ more := by decide) : SameAt names fields fields' :=
  fun name mem => h name (some mem)

theorem corresponds_checkMessage (same : SameMessage body body') :
    Corresponds Fault.AllAlike (fun m m' => SameAt messageNames m.2 m'.2) (checkMessage body)
      (checkMessage body') := by
  cases same with
  | whole same =>
    unfold checkMessage
    rw [same.field?]
    split
    · exact .error (.cons (Fault.alike_missing _ _ _) .nil)
    · split
      · exact .ok fun _ _ => rfl
      · exact .error (Fault.allAlike_refl _)
  | fields message message' same =>
    unfold checkMessage
    rw [message, message']
    exact .ok same

theorem alike_ofFields (depth : Nat) (same : SameKnownFields body body') :
    (ofFields depth body).Alike (ofFields depth body') := by
  have subscription := alike_checkSubscription same.subscription
  have messages := corresponds_checkMessage same.message
  unfold ofFields
  generalize checkMessage body = m, checkMessage body' = m' at messages
  cases messages with
  | error alike => exact .error (List.rel_append subscription.faults alike)
  | @ok m m' known =>
    obtain ⟨message, fields⟩ := m
    obtain ⟨message', fields'⟩ := m'
    have id := alike_checkId message message' known.mono
    dsimp only
    rw [checkTime_congr known.mono, checkData_congr known.mono, checkAttributes_congr known.mono]
    have inside := ((id.faults.append (checkTime fields).faults).append
      (checkData depth fields).faults).append (checkAttributes fields).faults
    have found := List.rel_append subscription.faults (inside.within "message")
    generalize checkSubscription body = s, checkSubscription body' = s' at subscription found
    generalize checkId message fields = i, checkId message' fields' = i' at id found
    generalize checkTime fields = t, checkData depth fields = d, checkAttributes fields = a at found
    cases subscription with
    | error => exact .error found
    | ok same =>
      cases id with
      | error => exact .error found
      | ok same' =>
        subst same same'
        exact .refl _

theorem dataHalt?_congr (same : SameAt ["data"] fields fields') :
    dataHalt? depth fields' = dataHalt? depth fields := by
  rw [dataHalt?, dataHalt?, same.field?]

theorem bodyHalt?_congr (depth : Nat) (same : SameMessage body body') :
    bodyHalt? depth body' = bodyHalt? depth body := by
  unfold bodyHalt?
  cases same with
  | whole same => rw [same.field?]
  | fields message message' same =>
    rw [message, message']
    exact dataHalt?_congr same.mono

theorem corresponds_decode (depth : Nat) (same : SameKnownFields body body') :
    Corresponds (Stop.Alike EnvelopeError.Alike) Eq (decode depth (.dict body))
      (decode depth (.dict body')) := by
  have alike := alike_ofFields depth same
  have halt := bodyHalt?_congr depth same.message
  unfold decode
  dsimp only [ofValue?]
  rw [halt]
  cases bodyHalt? depth body with
  | some cause => exact .error (.halted cause)
  | none =>
    dsimp only
    generalize ofFields depth body = x, ofFields depth body' = x' at alike
    cases alike with
    | ok same => exact .ok same
    | error found => exact .error (.refused (EnvelopeError.alike_faults found))

theorem sameAt_messageFields (same : SameMessage body body') :
    SameAt messageNames (messageFields (.dict body)) (messageFields (.dict body')) := by
  unfold messageFields dictEntries
  cases same with
  | whole same =>
    rw [same.field?]
    exact fun _ _ => rfl
  | fields message message' same =>
    rw [message, message']
    exact same

theorem salvage_congr (depth : Nat) (same : SameKnownFields body body') :
    salvage depth (.dict body') = salvage depth (.dict body) := by
  have known := sameAt_messageFields same.message
  have id : firstField? _ idNames = firstField? _ idNames := known.mono.firstField?
  have halt : dataHalt? depth _ = dataHalt? depth _ := dataHalt?_congr known.mono
  unfold salvage pieces
  dsimp only [dictEntries]
  rw [halt, same.subscription.field?, id, known.field?, known.field?]

end Envelope
end PushDispatch
