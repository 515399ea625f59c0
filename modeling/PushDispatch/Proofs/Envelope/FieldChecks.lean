import PushDispatch.Proofs.Envelope.Data
import PushDispatch.Proofs.Envelope.Report
import PushDispatch.Proofs.Json.Shape

/-! Every check of a field settles the requirements on that field: it returns the one value that the
contract allows or reports all that is wrong there. -/
namespace PushDispatch.Envelope

variable {depth : Nat} {body fields : Entries}

theorem firstField?_eq_some_iff {first second name : String} {v : Value} :
    firstField? fields [first, second] = some (name, v) ↔ SpelledAs fields first second name v := by
  constructor
  · intro found
    rw [firstField?] at found
    split at found
    · rename_i present
      cases found
      exact .first present
    · rename_i absent
      rw [firstField?] at found
      split at found
      · rename_i present
        cases found
        exact .second absent present
      · cases found
  · rintro (present | ⟨absent, present⟩)
    · simp [firstField?, present]
    · simp [firstField?, absent, present]

theorem firstField?_eq_none_iff {first second : String} :
    firstField? fields [first, second] = none ↔
      Entries.field? fields first = none ∧ Entries.field? fields second = none := by
  rw [firstField?, firstField?, firstField?]
  cases Entries.field? fields first <;> cases Entries.field? fields second <;> simp

theorem SpelledAs.unique {first second name name' : String} {v v' : Value}
    (h : SpelledAs fields first second name v) (h' : SpelledAs fields first second name' v') :
    name = name' ∧ v = v' := by
  rw [← firstField?_eq_some_iff] at h h'
  simpa using h.symm.trans h'

theorem SpelledAs.present {first second name : String} {v : Value}
    (h : SpelledAs fields first second name v) :
    ¬ (Entries.field? fields first = none ∧ Entries.field? fields second = none) := by
  rw [← firstField?_eq_none_iff, firstField?_eq_some_iff.2 h]
  nofun

theorem settles_checkSubscription (depth : Nat) (body : Entries) :
    Settles (among (· = .subscription) (Breach depth body))
      (fun s => s ≠ "" ∧ Entries.field? body "subscription" = some (.str s))
      (checkSubscription body) := by
  unfold checkSubscription
  split
  · rename_i absent
    exact .one (by simp [absent]) (.noSubscription absent)
  · rename_i present
    exact .one (by simp [present, eq_comm]) (.emptySubscription present)
  · rename_i s notEmpty present
    refine .met (fun b => ?_) ?_
    · simp only [present, Option.some.injEq, Value.str.injEq]
      exact ⟨fun h => h.2.symm, fun h => ⟨h ▸ notEmpty, h.symm⟩⟩
    · rintro q f ⟨rfl, breach⟩
      cases breach with
      | inMessage _ breach => cases breach
      | noSubscription | emptySubscription | subscriptionNotText => simp_all
  · rename_i v _ notText present
    have unmet (b : String) : ¬ (b ≠ "" ∧ Entries.field? body "subscription" = some (.str b)) := by
      rintro ⟨-, text⟩
      exact notText b (Option.some.inj (present.symm.trans text))
    exact .one unmet (.subscriptionNotText present notText)

theorem entries?_eq_some_iff {v : Value} (json : v.isJson) {entries : Entries} :
    v.entries? = some entries ↔ v = .dict entries := by
  cases v <;> simp_all [Value.entries?, Value.isJson]

theorem settles_checkMessage (depth : Nat) (json : Value.entriesJson body) :
    Settles (among (· = .message) (Breach depth body))
      (fun m : Value × Entries => m.1 = .dict m.2 ∧
        Entries.field? body "message" = some (.dict m.2)) (checkMessage body) := by
  unfold checkMessage
  split
  · rename_i absent
    exact .one (by simp [absent]) (.noMessage absent)
  · rename_i v present
    have json := Value.isJson_of_field? json present
    split
    · rename_i found
      obtain rfl := (entries?_eq_some_iff json).1 found
      refine .met (fun b => ?_) ?_
      · simp only [present, Option.some.injEq, Value.dict.injEq]
        exact ⟨fun h => Prod.ext (h.1.trans (congrArg _ h.2.symm)) h.2.symm,
          fun h => h ▸ ⟨rfl, rfl⟩⟩
      · rintro q f ⟨rfl, breach⟩
        cases breach with
        | inMessage _ breach => cases breach
        | noMessage | messageNotObject => simp_all
    · rename_i notObject
      have notObject (entries : Entries) : v ≠ .dict entries := by
        rintro rfl
        cases notObject
      refine .one (fun b hb => ?_) (.messageNotObject present notObject)
      exact notObject b.2 (Option.some.inj (present.symm.trans hb.2))

theorem settles_checkId (depth : Nat) (fields : Entries) :
    Settles (among (· = .id) (FieldBreach depth fields))
      (fun s => ∃ name, IdAt fields name (.str s))
      (checkId (.dict fields) fields) := by
  unfold checkId idNames
  split
  · rename_i none
    rw [firstField?_eq_none_iff] at none
    exact .one (fun s ⟨name, present⟩ => present.present none) (.noId none.1 none.2)
  · rename_i name s found
    have present : IdAt fields name (.str s) := firstField?_eq_some_iff.1 found
    refine .met (fun b => ⟨fun ⟨_, h⟩ => ?_, fun same => ⟨name, same ▸ present⟩⟩) ?_
    · exact Value.str.inj (h.unique present).2
    · rintro q f ⟨rfl, breach⟩
      cases breach with
      | noId camel snake => exact present.present ⟨camel, snake⟩
      | idNotText other notText => exact notText s (other.unique present).2
  · rename_i name v notText found
    have present : IdAt fields name v := firstField?_eq_some_iff.1 found
    exact .one (fun s ⟨_, h⟩ => notText s (present.unique h).2) (.idNotText present notText)

theorem timeOf_iff {name : String} {v : Value} (present : TimeAt fields name v)
    (t : Option DateTime) :
    TimeOf fields t ↔
      v = .null ∧ t = none ∨ ∃ moment, readMoment v = .ok moment ∧ t = some moment := by
  constructor
  · intro h
    cases h with
    | absent camel snake => exact absurd ⟨camel, snake⟩ present.present
    | null other => exact .inl ⟨(present.unique other).2, rfl⟩
    | moment other read =>
      rw [← (present.unique other).2] at read
      exact .inr ⟨_, read, rfl⟩
  · rintro (⟨rfl, rfl⟩ | ⟨moment, read, rfl⟩)
    · exact .null present
    · exact .moment present read

theorem timeBreach_iff {name : String} {v : Value} (present : TimeAt fields name v) {f : Fault} :
    FieldBreach depth fields .publishTime f ↔
      v ≠ .null ∧ ∃ cause, readMoment v = .error cause ∧ f = ⟨cause, [.str name], v⟩ := by
  constructor
  · intro breach
    cases breach with
    | notMoment other notNull unread =>
      obtain ⟨rfl, rfl⟩ := present.unique other
      exact ⟨notNull, _, unread, rfl⟩
  · rintro ⟨notNull, cause, unread, rfl⟩
    exact .notMoment present notNull unread

theorem settles_checkTime (depth : Nat) (fields : Entries) :
    Settles (among (· = .publishTime) (FieldBreach depth fields)) (TimeOf fields)
      (checkTime fields) := by
  unfold checkTime timeNames
  split
  · rename_i none
    rw [firstField?_eq_none_iff] at none
    refine .met (fun t => ⟨fun h => ?_, fun same => same ▸ .absent none.1 none.2⟩) ?_
    · cases h with
      | absent | null => rfl
      | moment present _ => exact absurd none present.present
    · rintro q f ⟨rfl, breach⟩
      cases breach with
      | notMoment present _ _ => exact present.present none
  · rename_i name found
    have present : TimeAt fields name .null := firstField?_eq_some_iff.1 found
    refine .met (fun t => ?_) ?_
    · rw [timeOf_iff present]
      simp [readMoment]
    · rintro q f ⟨rfl, breach⟩
      exact ((timeBreach_iff present).1 breach).1 rfl
  · rename_i name v notNull found
    have present : TimeAt fields name v := firstField?_eq_some_iff.1 found
    have notNull : v ≠ .null := notNull
    split
    · rename_i moment read
      refine .met (fun t => ?_) ?_
      · rw [timeOf_iff present, read]
        simp [notNull]
      · rintro q f ⟨rfl, breach⟩
        obtain ⟨-, cause, unread, -⟩ := (timeBreach_iff present).1 breach
        cases read.symm.trans unread
    · rename_i cause unread
      refine .one (fun t => ?_) ((timeBreach_iff present).2 ⟨notNull, cause, unread, rfl⟩)
      rw [timeOf_iff present, unread]
      simp [notNull]

theorem entriesJson_of_decode {v : Value} (json : v.isJson) {entries : Entries}
    (decoded : MessageData.decode depth v = .ok entries) : Value.entriesJson entries := by
  cases v with
  | dict =>
    cases decoded
    exact json
  | str s =>
    obtain ⟨bytes, -, read⟩ := MessageData.decodeText_eq_ok_iff.1 decoded
    exact Json.isJson_of_readBytes (fun _ _ => Json.isJson_of_boundedNumber) read
  | _ => cases decoded

theorem keyFaults_eq_nil (field : String) {entries : Entries} (json : Value.entriesJson entries) :
    entries.flatMap (fun e => keyFaults field e.1) = [] := by
  rw [List.flatMap_eq_nil_iff]
  intro entry he
  obtain ⟨⟨name, hk⟩, -⟩ := Value.entriesJson_iff.1 json entry he
  rw [hk, keyFaults]

theorem dataOf_iff {v : Value} (present : Entries.field? fields "data" = some v)
    (entries : Entries) :
    DataOf depth fields entries ↔ MessageData.decode depth v = .ok entries := by
  rw [MessageData.decode_eq_ok_iff]
  constructor
  · intro h
    cases h with
    | absent absent => simp [absent] at present
    | object other => exact .inl (Option.some.inj (present.symm.trans other))
    | text other decoded => exact .inr ⟨_, Option.some.inj (present.symm.trans other), decoded⟩
  · rintro (rfl | ⟨s, rfl, decoded⟩)
    · exact .object present
    · exact .text present decoded

theorem settles_checkData (depth : Nat) {fields : Entries} (json : Value.entriesJson fields) :
    Settles (among (· = .data) (FieldBreach depth fields)) (DataOf depth fields)
      (checkData depth fields) := by
  unfold checkData
  split
  · rename_i absent
    refine .met (fun d => ⟨fun h => ?_, fun same => same ▸ .absent absent⟩) ?_
    · cases h <;> simp_all
    · rintro q f ⟨rfl, breach⟩
      cases breach
      simp_all
  · rename_i v present
    split
    · rename_i undecoded
      have unmet (entries : Entries) : ¬ MessageData.decode depth v = .ok entries := by
        rw [undecoded]
        nofun
      refine .one (fun d => (dataOf_iff present d).not.2 (unmet d)) (.undecodableData present ?_ ?_)
      · exact fun entries object => unmet entries (MessageData.decode_eq_ok_iff.2 (.inl object))
      · exact fun s entries text decoded =>
          unmet entries (MessageData.decode_eq_ok_iff.2 (.inr ⟨s, text, decoded⟩))
    · rename_i entries decoded
      have json := entriesJson_of_decode (Value.isJson_of_field? json present) decoded
      rw [keyFaults_eq_nil "data" json]
      refine .met (fun d => ?_) ?_
      · rw [dataOf_iff present, decoded, Except.ok.injEq, eq_comm]
      · rintro q f ⟨rfl, breach⟩
        cases breach with
        | undecodableData other notObject undecoded =>
          cases present.symm.trans other
          rcases MessageData.decode_eq_ok_iff.1 decoded with object | ⟨s, text, decoded⟩
          · exact notObject entries object
          · exact undecoded s entries text decoded

def entryFaults (entry : Key × Value) : List Fault :=
  keyFaults "attributes" entry.1 ++ textFaults "attributes" entry.1 entry.2

theorem entryFaults_notText (name : String) {v : Value} (notText : ∀ s, v ≠ .str s) :
    entryFaults (.str name, v) = [⟨.notText, [.str "attributes", .str name], v⟩] := by
  cases v with
  | str s => exact absurd rfl (notText s)
  | _ => rfl

private theorem flatMap_entryFaults_eq_nil_iff {entries : Entries}
    (json : Value.entriesJson entries) :
    entries.flatMap entryFaults = [] ↔ ∀ entry ∈ entries, ∃ s, entry.2 = .str s := by
  rw [List.flatMap_eq_nil_iff]
  refine forall₂_congr fun entry he => ?_
  obtain ⟨k, v⟩ := entry
  obtain ⟨⟨name, rfl⟩, -⟩ := Value.entriesJson_iff.1 json _ he
  by_cases text : ∃ s, v = .str s
  · obtain ⟨s, rfl⟩ := text
    exact iff_of_true rfl ⟨s, rfl⟩
  · have notText (s : String) : v ≠ .str s := fun same => text ⟨s, same⟩
    simp [entryFaults_notText name notText, notText]

theorem attributeBreach_iff {entries : Entries}
    (present : Entries.field? fields "attributes" = some (.dict entries)) {i : Nat} {f : Fault} :
    FieldBreach depth fields (.attribute i) f ↔ ∃ name v, entries[i]? = some (.str name, v) ∧
      (∀ s, v ≠ .str s) ∧ f = ⟨.notText, [.str "attributes", .str name], v⟩ := by
  constructor
  · intro breach
    cases breach with
    | attributeNotText other entry notText =>
      cases present.symm.trans other
      exact ⟨_, _, entry, notText, rfl⟩
  · rintro ⟨name, v, entry, notText, rfl⟩
    exact .attributeNotText present entry notText

/-- The induction is on the number of entries, the last of which comes last in the report. -/
theorem reports_attributes (depth : Nat) {entries : Entries}
    (present : Entries.field? fields "attributes" = some (.dict entries))
    (json : Value.entriesJson entries) (count : Nat) (le : count ≤ entries.length) :
    Reports (among (fun q => ∃ i < count, q = .attribute i) (FieldBreach depth fields))
      ((entries.take count).flatMap entryFaults) := by
  induction count with
  | zero => exact .nil fun q f ⟨⟨i, hi, _⟩, _⟩ => absurd hi (Nat.not_lt_zero i)
  | succ count ih =>
    obtain ⟨name, v, entry⟩ : ∃ name v, entries[count] = (.str name, v) := by
      obtain ⟨⟨name, hk⟩, -⟩ := Value.entriesJson_iff.1 json _ (List.getElem_mem le)
      exact ⟨name, entries[count].2, Prod.ext hk rfl⟩
    have here : entries[count]? = some (.str name, v) := by
      rw [List.getElem?_eq_getElem le, entry]
    have last : Reports (among (· = .attribute count) (FieldBreach depth fields))
        (entryFaults entries[count]) := by
      rw [entry]
      by_cases text : ∃ s, v = .str s
      · obtain ⟨s, rfl⟩ := text
        refine .nil ?_
        rintro q f ⟨rfl, breach⟩
        obtain ⟨_, _, other, notText, -⟩ := (attributeBreach_iff present).1 breach
        cases here.symm.trans other
        exact notText s rfl
      · have notText (s : String) : v ≠ .str s := fun same => text ⟨s, same⟩
        rw [entryFaults_notText name notText]
        exact .single ((attributeBreach_iff present).2 ⟨name, v, here, notText, rfl⟩)
    rw [List.take_succ_eq_append_getElem le, List.flatMap_append, List.flatMap_singleton]
    refine ((ih (Nat.le_of_lt le)).append ?_ last).congr ?_
    · rintro _ f _ g ⟨⟨i, hi, rfl⟩, -⟩ ⟨rfl, -⟩
      simp only [Requirement.place]
      omega
    · intro q f
      rw [among, among, among, ← or_and_right]
      refine and_congr_left fun _ => ?_
      constructor
      · rintro (⟨i, hi, rfl⟩ | rfl)
        · exact ⟨i, Nat.lt_succ_of_lt hi, rfl⟩
        · exact ⟨count, Nat.lt_succ_self count, rfl⟩
      · rintro ⟨i, hi, rfl⟩
        rcases Nat.lt_succ_iff_lt_or_eq.1 hi with hi | rfl
        · exact .inl ⟨i, hi, rfl⟩
        · exact .inr rfl

def isOnAttributes (q : Requirement) : Prop := q = .attributes ∨ ∃ i, q = .attribute i

private theorem reports_entryFaults (depth : Nat) {entries : Entries}
    (present : Entries.field? fields "attributes" = some (.dict entries))
    (json : Value.entriesJson entries) :
    Reports (among isOnAttributes (FieldBreach depth fields)) (entries.flatMap entryFaults) := by
  have whole := reports_attributes depth present json entries.length (Nat.le_refl _)
  rw [List.take_length] at whole
  refine whole.among_congr fun q f breach => ⟨fun ⟨i, _, h⟩ => .inr ⟨i, h⟩, ?_⟩
  rintro (rfl | ⟨i, rfl⟩)
  · cases breach with
    | attributesNotObject other notObject =>
      exact absurd (Option.some.inj (other.symm.trans present)) (notObject _)
  · obtain ⟨_, _, entry, -, -⟩ := (attributeBreach_iff present).1 breach
    exact ⟨i, (List.getElem?_eq_some_iff.1 entry).1, rfl⟩

theorem reports_notObject {v : Value} (present : Entries.field? fields "attributes" = some v)
    (notObject : ∀ entries, v ≠ .dict entries) :
    Reports (among isOnAttributes (FieldBreach depth fields))
      [⟨.notObject, [.str "attributes"], v⟩] := by
  have breach : FieldBreach depth fields .attributes _ := .attributesNotObject present notObject
  refine (Reports.single breach).among_congr fun q f breach => ⟨.inl, ?_⟩
  rintro (rfl | ⟨i, rfl⟩)
  · rfl
  · cases breach with
    | attributeNotText other _ _ =>
      exact absurd (Option.some.inj (present.symm.trans other)) (notObject _)

theorem attributesOf_iff {v : Value} (present : Entries.field? fields "attributes" = some v)
    (entries : Entries) : AttributesOf fields entries ↔
      v = .dict entries ∧ ∀ entry ∈ entries, ∃ s, entry.2 = .str s := by
  constructor
  · intro h
    cases h with
    | absent absent => cases absent.symm.trans present
    | object other texts => exact ⟨Option.some.inj (present.symm.trans other), texts⟩
  · rintro ⟨rfl, texts⟩
    exact .object present texts

theorem settles_checkAttributes (depth : Nat) {fields : Entries} (json : Value.entriesJson fields) :
    Settles (among isOnAttributes (FieldBreach depth fields)) (AttributesOf fields)
      (checkAttributes fields) := by
  unfold checkAttributes
  split
  · rename_i absent
    refine .met (fun a => ⟨fun h => ?_, fun same => same ▸ .absent absent⟩) ?_
    · cases h <;> simp_all
    · rintro q f ⟨rfl | ⟨i, rfl⟩, breach⟩ <;> cases breach <;> simp_all
  · rename_i v present
    have json := Value.isJson_of_field? json present
    split
    · rename_i notMapping
      have notObject (entries : Entries) : v ≠ .dict entries := by
        rintro rfl
        cases notMapping
      refine .breached (by simp) (fun a h => ?_) (reports_notObject present notObject)
      exact notObject a ((attributesOf_iff present a).1 h).1
    · rename_i entries found
      obtain rfl := (entries?_eq_some_iff json).1 found
      have report := reports_entryFaults depth present json
      have texts := flatMap_entryFaults_eq_nil_iff json
      dsimp only
      split
      · rename_i none
        have none : entries.flatMap entryFaults = [] := none
        rw [none] at report
        refine .met (fun a => ?_) report.not_breach_of_nil
        rw [attributesOf_iff present, Value.dict.injEq]
        constructor
        · exact fun h => h.1.symm
        · rintro rfl
          exact ⟨rfl, texts.1 none⟩
      · rename_i some
        refine .breached some (fun a h => ?_) report
        obtain ⟨same, all⟩ := (attributesOf_iff present a).1 h
        cases same
        exact some (texts.2 all)

end PushDispatch.Envelope
