import PushDispatch.Proofs.Envelope.Salvage
import PushDispatch.Proofs.Except
import PushDispatch.Proofs.Value.Keys
import PushDispatch.Server.Response

/-! What is sent of a JSON value: all of it but the internal members of its objects, at any depth. A
value is sent whole exactly when it names no such member. -/
namespace PushDispatch.JsonBody

mutual

/-- What is sent of a JSON value: internal members stay behind. -/
def sent : Value → Value
  | .list items => .list (sentItems items)
  | .dict entries => .dict (sentMembers entries)
  | v => v

def sentItems : List Value → List Value
  | [] => []
  | v :: rest => sent v :: sentItems rest

def sentMembers : List (Key × Value) → List (Key × Value)
  | [] => []
  | (k, v) :: rest =>
    if isInternal k then sentMembers rest else (k, sent v) :: sentMembers rest

end

mutual

theorem prepare_of_isJson (v : Value) (json : v.isJson) : prepare v = .ok (sent v) := by
  cases v with
  | null | bool | int | float | str => rfl
  | list items =>
    rw [prepare, prepareItems_of_areJson items json, sent]
    rfl
  | dict entries =>
    rw [prepare, prepareMembers_of_entriesJson entries json, sent]
    rfl
  | tuple | proxy | thunk | message | envelope => cases json

theorem prepareItems_of_areJson (items : List Value) (json : Value.areJson items) :
    prepareItems items = .ok (sentItems items) := by
  cases items with
  | nil => rfl
  | cons v rest =>
    rw [Value.areJson, Bool.and_eq_true] at json
    rw [prepareItems, prepare_of_isJson v json.1, prepareItems_of_areJson rest json.2, sentItems]
    rfl

theorem prepareMembers_of_entriesJson (entries : Entries) (json : Value.entriesJson entries) :
    prepareMembers entries = .ok (sentMembers entries) := by
  match entries, json with
  | [], _ => rfl
  | (.str name, v) :: rest, json =>
    rw [Value.entriesJson, Bool.and_eq_true, Bool.and_eq_true] at json
    have first := prepare_of_isJson v json.1.2
    have others := prepareMembers_of_entriesJson rest json.2
    unfold prepareMembers sentMembers
    split
    · exact others
    · simp only [first, others]
      rfl

end

inductive NamesMember (name : String) : Value → Prop where
  | here {entries v} (mem : (.str name, v) ∈ entries) : NamesMember name (.dict entries)
  | inItem {items v} (mem : v ∈ items) (within : NamesMember name v) :
      NamesMember name (.list items)
  | inMember {entries k v} (mem : (k, v) ∈ entries) (within : NamesMember name v) :
      NamesMember name (.dict entries)

theorem sentItems_eq_map (items : List Value) : sentItems items = items.map sent := by
  induction items with
  | nil => rfl
  | cons v rest ih => rw [sentItems, ih, List.map_cons]

theorem sentMembers_eq_map (entries : Entries) :
    sentMembers entries
      = (entries.filter fun m => !isInternal m.1).map fun m => (m.1, sent m.2) := by
  induction entries with
  | nil => rfl
  | cons entry rest ih =>
    unfold sentMembers
    split
    · rename_i internal
      rw [ih, List.filter_cons_of_neg (by simp [internal])]
    · rename_i kept
      rw [ih, List.filter_cons_of_pos (by simp [kept]), List.map_cons]

theorem sent_of_sentItems_eq_self {items : List Value} (whole : sentItems items = items) :
    ∀ v ∈ items, sent v = v := by
  rw [sentItems_eq_map] at whole
  nth_rewrite 2 [← List.map_id items] at whole
  exact List.map_inj_left.1 whole

/-- Members that are all sent whole are all kept, as none can be made up for. -/
theorem sent_of_sentMembers_eq_self {entries : Entries} (whole : sentMembers entries = entries) :
    ∀ m ∈ entries, isInternal m.1 = false ∧ sent m.2 = m.2 := by
  rw [sentMembers_eq_map] at whole
  have all : ∀ m ∈ entries, !isInternal m.1 := by
    rw [← List.length_filter_eq_length_iff, ← congrArg List.length whole, List.length_map]
  rw [List.filter_eq_self.2 all] at whole
  nth_rewrite 2 [← List.map_id entries] at whole
  intro m mem
  have kept := all m mem
  have value := congrArg Prod.snd (List.map_inj_left.1 whole m mem)
  exact ⟨by simpa using kept, value⟩

theorem field?_sentMembers (entries : Entries) (name : String) :
    Entries.field? (sentMembers entries) name
      = if isInternal (.str name) then none else (Entries.field? entries name).map sent := by
  induction entries with
  | nil => simp [sentMembers, Entries.field?, Entries.lookup?]
  | cons entry rest ih =>
    obtain ⟨k, v⟩ := entry
    unfold sentMembers
    by_cases here : k = .str name
    · subst here
      by_cases internal : isInternal (.str name)
      · simp [internal, ih]
      · simp [internal]
    · have other (w : Value) (es : Entries) :
          Entries.field? ((k, w) :: es) name = Entries.field? es name := by
        have differs : ¬ k.same (.str name) := by
          rw [Key.same_comm, Key.same_str_iff]
          exact here
        rw [Entries.field?, Entries.lookup?, if_neg differs, Entries.field?]
      split <;> simp only [other, ih]

private theorem valueField?_sent {v : Value} (json : v.isJson) (name : String) :
    (sent v).field? name
      = if isInternal (.str name) then none else (v.field? name).map sent := by
  cases v with
  | dict entries => exact field?_sentMembers entries name
  | proxy => cases json
  | _ => exact (ite_self none).symm

/-- At a path that goes through an internal member there is nothing, and elsewhere what is sent of
the value there. -/
theorem reach?_sent {v : Value} (json : v.isJson) (path : List String) :
    (sent v).reach? path
      = if path.any fun name => isInternal (.str name) then none
        else (v.reach? path).map sent := by
  induction path generalizing v with
  | nil => rfl
  | cons name path ih =>
    rw [Value.reach?_cons, Value.reach?_cons, valueField?_sent json, List.any_cons]
    by_cases internal : isInternal (.str name)
    · simp [internal]
    · cases found : v.field? name with
      | none => simp [internal]
      | some w =>
        have within : w.isJson := Envelope.isJson_of_valueField? json found
        simp [internal, ih within]

mutual

theorem sent_eq_self (v : Value) (none : ∀ name, NamesMember name v → ¬ isInternal (.str name)) :
    sent v = v := by
  cases v with
  | list items =>
    rw [sent, sentItems_eq_self items fun w mem name within => none name (.inItem mem within)]
  | dict entries =>
    rw [sent, sentMembers_eq_self entries (fun name w mem => none name (.here mem))
      fun m mem name within => none name (.inMember mem within)]
  | null | bool | int | float | str | tuple | proxy | thunk | message | envelope => rfl

theorem sentItems_eq_self (items : List Value)
    (none : ∀ v ∈ items, ∀ name, NamesMember name v → ¬ isInternal (.str name)) :
    sentItems items = items := by
  cases items with
  | nil => rfl
  | cons v rest =>
    rw [sentItems, sent_eq_self v (none v List.mem_cons_self),
      sentItems_eq_self rest fun w mem => none w (List.mem_cons_of_mem v mem)]

theorem sentMembers_eq_self (entries : Entries)
    (kept : ∀ name v, (Key.str name, v) ∈ entries → ¬ isInternal (.str name))
    (none : ∀ m ∈ entries, ∀ name, NamesMember name m.2 → ¬ isInternal (.str name)) :
    sentMembers entries = entries := by
  match entries with
  | [] => rfl
  | (k, v) :: rest =>
    have stays : isInternal k = false := by
      cases k with
      | str name => simpa using kept name v List.mem_cons_self
      | _ => rfl
    rw [sentMembers, stays, sent_eq_self v (none _ List.mem_cons_self),
      sentMembers_eq_self rest (fun name w mem => kept name w (List.mem_cons_of_mem _ mem))
        fun m mem => none m (List.mem_cons_of_mem _ mem)]
    rfl

end

theorem sent_eq_self_iff {v : Value} :
    sent v = v ↔ ∀ name, NamesMember name v → ¬ isInternal (.str name) := by
  refine ⟨fun whole name names => ?_, sent_eq_self v⟩
  induction names with
  | here mem =>
    have kept := (sent_of_sentMembers_eq_self (Value.dict.inj whole) _ mem).1
    simp [kept]
  | inItem mem _ ih =>
    apply ih
    exact sent_of_sentItems_eq_self (Value.list.inj whole) _ mem
  | inMember mem _ ih =>
    apply ih
    exact (sent_of_sentMembers_eq_self (Value.dict.inj whole) _ mem).2

/-- A property of values that comes down to their parts: a list has it if its items have it, and an
object that has it keeps it when members go, or get other values that have it. -/
structure Hereditary (value : Value → Bool) (items : List Value → Bool) (members : Entries → Bool) :
    Prop where
  list : ∀ vs, value (.list vs) = items vs
  dict : ∀ es, value (.dict es) = members es
  nil : items [] = true
  cons : ∀ v vs, items (v :: vs) = (value v && items vs)
  empty : members [] = true
  parts : ∀ {k v rest}, members ((k, v) :: rest) → value v ∧ members rest
  replace : ∀ {k v w rest rest'}, members ((k, v) :: rest) → value w → members rest' →
    (∀ name, Entries.field? rest name = none → Entries.field? rest' name = none) →
    members ((k, w) :: rest')

namespace Hereditary

variable {value : Value → Bool} {items : List Value → Bool} {members : Entries → Bool}

mutual

theorem value_sent (h : Hereditary value items members) (v : Value) (holds : value v) :
    value (sent v) := by
  cases v with
  | list vs =>
    rw [h.list] at holds
    rw [sent, h.list]
    exact h.items_sent vs holds
  | dict es =>
    rw [h.dict] at holds
    rw [sent, h.dict]
    exact h.members_sent es holds
  | null | bool | int | float | str | tuple | proxy | thunk | message | envelope => exact holds

theorem items_sent (h : Hereditary value items members) (vs : List Value) (holds : items vs) :
    items (sentItems vs) := by
  cases vs with
  | nil => exact h.nil
  | cons v vs =>
    rw [h.cons, Bool.and_eq_true] at holds
    rw [sentItems, h.cons, Bool.and_eq_true]
    exact ⟨h.value_sent v holds.1, h.items_sent vs holds.2⟩

theorem members_sent (h : Hereditary value items members) (es : Entries) (holds : members es) :
    members (sentMembers es) := by
  match es, holds with
  | [], _ => exact h.empty
  | (k, v) :: rest, holds =>
    obtain ⟨first, others⟩ := h.parts holds
    have sentOthers := h.members_sent rest others
    unfold sentMembers
    split
    · exact sentOthers
    · refine h.replace holds (h.value_sent v first) sentOthers fun name absent => ?_
      rw [field?_sentMembers, absent, Option.map_none, ite_self]

end

end Hereditary

theorem hereditary_isFinite : Hereditary isFinite areFinite membersFinite where
  list _ := rfl
  dict _ := rfl
  nil := rfl
  cons _ _ := rfl
  empty := rfl
  parts := by simp_all [membersFinite]
  replace := by simp_all [membersFinite]

theorem hereditary_isWritable :
    Hereditary Value.isWritable Value.areWritable Value.entriesWritable where
  list _ := rfl
  dict _ := rfl
  nil := rfl
  cons _ _ := rfl
  empty := rfl
  parts := by simp_all [Value.entriesWritable]
  replace := by simp_all [Value.entriesWritable]

mutual

theorem depth_sent_le (v : Value) : (sent v).depth ≤ v.depth := by
  cases v with
  | list items => exact Nat.succ_le_succ (depthOfItems_sentItems_le items)
  | dict entries => exact Nat.succ_le_succ (depthOfEntries_sentMembers_le entries)
  | null | bool | int | float | str | tuple | proxy | thunk | message | envelope =>
    exact Nat.le_refl _

theorem depthOfItems_sentItems_le (items : List Value) :
    Value.depthOfItems (sentItems items) ≤ Value.depthOfItems items := by
  cases items with
  | nil => exact Nat.le_refl _
  | cons v rest =>
    have first := depth_sent_le v
    have others := depthOfItems_sentItems_le rest
    simp only [sentItems, Value.depthOfItems]
    omega

theorem depthOfEntries_sentMembers_le (entries : Entries) :
    Value.depthOfEntries (sentMembers entries) ≤ Value.depthOfEntries entries := by
  match entries with
  | [] => exact Nat.le_refl _
  | (k, v) :: rest =>
    have first := depth_sent_le v
    have others := depthOfEntries_sentMembers_le rest
    unfold sentMembers
    split <;> simp only [Value.depthOfEntries] <;> omega

end

/-- A JSON value that is not nested too deep has a text unless a number that would be sent is not
finite. -/
theorem text_of_isJson {depth : Nat} {v : Value} (json : v.isJson) (writable : v.isWritable)
    (level : v.depth ≤ depth) :
    text depth v = if isFinite (sent v) then .ok (Json.writeText Json.Style.compact (sent v))
      else .error .notFinite := by
  have written : (sent v).isWritable = true := hereditary_isWritable.value_sent v writable
  have shallow : ¬ depth < (sent v).depth := by
    have := depth_sent_le v
    omega
  unfold text
  rw [prepare_of_isJson v json, ok_bind, if_neg shallow]
  cases finite : isFinite (sent v) with
  | true =>
    simp [written]
    rfl
  | false =>
    simp
    rfl

end PushDispatch.JsonBody
