import Mathlib.Data.List.Forall2
import PushDispatch.Envelope.Decode

/-! The contract of a pushed message, said without the checks that enforce it: which bodies keep it
and what their envelopes hold, and for the others every breach with the detail that reports it. -/
namespace PushDispatch.Envelope

/-- The value of a field with two spellings, and the spelling: the first one counts as soon as its
key is there, whatever its value. -/
inductive SpelledAs (fields : Entries) (first second : String) : String → Value → Prop where
  | first {v} (present : Entries.field? fields first = some v) :
      SpelledAs fields first second first v
  | second {v} (absent : Entries.field? fields first = none)
      (present : Entries.field? fields second = some v) : SpelledAs fields first second second v

abbrev IdAt (fields : Entries) := SpelledAs fields "messageId" "message_id"

abbrev TimeAt (fields : Entries) := SpelledAs fields "publishTime" "publish_time"

inductive TimeOf (fields : Entries) : Option DateTime → Prop where
  | absent (camel : Entries.field? fields "publishTime" = none)
      (snake : Entries.field? fields "publish_time" = none) : TimeOf fields none
  | null {name} (present : TimeAt fields name .null) : TimeOf fields none
  | moment {name v t} (present : TimeAt fields name v) (read : readMoment v = .ok t) :
      TimeOf fields (some t)

inductive DataOf (depth : Nat) (fields : Entries) : Entries → Prop where
  | absent (absent : Entries.field? fields "data" = none) : DataOf depth fields []
  | object {entries} (present : Entries.field? fields "data" = some (.dict entries)) :
      DataOf depth fields entries
  | text {s entries} (present : Entries.field? fields "data" = some (.str s))
      (decoded : MessageData.decodeText depth s = .ok entries) : DataOf depth fields entries

inductive AttributesOf (fields : Entries) : Entries → Prop where
  | absent (absent : Entries.field? fields "attributes" = none) : AttributesOf fields []
  | object {entries} (present : Entries.field? fields "attributes" = some (.dict entries))
      (texts : ∀ entry ∈ entries, ∃ s, entry.2 = .str s) : AttributesOf fields entries

/-- The value keeps the contract, and the envelope holds what it says. -/
structure Keeps (depth : Nat) (raw : Value) (body fields : Entries) (e : Envelope) : Prop where
  object : raw = .dict body
  subscription : ∃ s, s ≠ "" ∧ Entries.field? body "subscription" = some (.str s) ∧
    e.subscription = some s
  message : Entries.field? body "message" = some (.dict fields)
  id : ∃ name s, IdAt fields name (.str s) ∧ e.id = some s
  publishTime : TimeOf fields e.publishTime
  data : ∃ entries, DataOf depth fields entries ∧ e.data = some entries
  attributes : AttributesOf fields e.attributes

/-- What the contract requires, one attribute apart from the other. -/
inductive Requirement where
  | subscription
  | message
  | id
  | publishTime
  | data
  | attributes
  | attribute (index : Nat)

def Requirement.place : Requirement → Nat
  | .subscription => 0
  | .message => 1
  | .id => 2
  | .publishTime => 3
  | .data => 4
  | .attributes => 5
  | .attribute index => 6 + index

/-- A requirement on the fields of a message that is not met, with its detail as seen from within
the message. -/
inductive FieldBreach (depth : Nat) (fields : Entries) : Requirement → Fault → Prop where
  | noId (camel : Entries.field? fields "messageId" = none)
      (snake : Entries.field? fields "message_id" = none) :
      FieldBreach depth fields .id ⟨.missing, [.str "messageId"], .dict fields⟩
  | idNotText {name v} (present : IdAt fields name v) (notText : ∀ s, v ≠ .str s) :
      FieldBreach depth fields .id ⟨.notText, [.str name], v⟩
  | notMoment {name v cause} (present : TimeAt fields name v) (notNull : v ≠ .null)
      (unread : readMoment v = .error cause) :
      FieldBreach depth fields .publishTime ⟨cause, [.str name], v⟩
  | undecodableData {v} (present : Entries.field? fields "data" = some v)
      (notObject : ∀ entries, v ≠ .dict entries)
      (undecoded : ∀ s entries, v = .str s → MessageData.decodeText depth s ≠ .ok entries) :
      FieldBreach depth fields .data ⟨.undecodableData, [.str "data"], v⟩
  | attributesNotObject {v} (present : Entries.field? fields "attributes" = some v)
      (notObject : ∀ entries, v ≠ .dict entries) :
      FieldBreach depth fields .attributes ⟨.notObject, [.str "attributes"], v⟩
  | attributeNotText {entries index name v}
      (present : Entries.field? fields "attributes" = some (.dict entries))
      (entry : entries[index]? = some (.str name, v)) (notText : ∀ s, v ≠ .str s) :
      FieldBreach depth fields (.attribute index) ⟨.notText, [.str "attributes", .str name], v⟩

/-- A requirement that a body does not meet, with its detail. Below a message that is no object
nothing is required. -/
inductive Breach (depth : Nat) (body : Entries) : Requirement → Fault → Prop where
  | noSubscription (absent : Entries.field? body "subscription" = none) :
      Breach depth body .subscription ⟨.missing, [.str "subscription"], .dict body⟩
  | emptySubscription (present : Entries.field? body "subscription" = some (.str "")) :
      Breach depth body .subscription ⟨.emptyText, [.str "subscription"], .str ""⟩
  | subscriptionNotText {v} (present : Entries.field? body "subscription" = some v)
      (notText : ∀ s, v ≠ .str s) :
      Breach depth body .subscription ⟨.notText, [.str "subscription"], v⟩
  | noMessage (absent : Entries.field? body "message" = none) :
      Breach depth body .message ⟨.missing, [.str "message"], .dict body⟩
  | messageNotObject {v} (present : Entries.field? body "message" = some v)
      (notObject : ∀ fields, v ≠ .dict fields) :
      Breach depth body .message ⟨.notMessage, [.str "message"], v⟩
  | inMessage {fields q cause loc input}
      (message : Entries.field? body "message" = some (.dict fields))
      (breach : FieldBreach depth fields q ⟨cause, loc, input⟩) :
      Breach depth body q ⟨cause, .str "message" :: loc, input⟩

/-- The details are those of the breached requirements, one for each, in order. -/
def Reports (breach : Requirement → Fault → Prop) (details : List Fault) : Prop :=
  ∃ breached : List Requirement, breached.Pairwise (·.place < ·.place) ∧
    (∀ q, q ∈ breached ↔ ∃ f, breach q f) ∧ List.Forall₂ breach breached details

end PushDispatch.Envelope
