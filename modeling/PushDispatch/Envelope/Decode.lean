import PushDispatch.Envelope.Data

/-!
Bodies as envelopes. `decode` accepts a body that keeps the contract and otherwise reports every
breach of it in the order of the fields; `salvage` makes the best of a body that broke it.
-/

namespace PushDispatch.Envelope

/-- The value at the first of the names that is present, with that name. -/
def firstField? (entries : Entries) : List String → Option (String × Value)
  | [] => none
  | name :: names =>
    match Entries.field? entries name with
    | some v => some (name, v)
    | none => firstField? entries names

def idNames : List String := ["messageId", "message_id"]

def timeNames : List String := ["publishTime", "publish_time"]

def readMoment : Value → Except Fault.Cause DateTime
  | .str s => (DateTime.read s).mapError .moment
  | .int n => (DateTime.ofUnixInt n).mapError (.moment ∘ .unix)
  | .float d => (DateTime.ofUnixDouble d).mapError (.moment ∘ .unix)
  | _ => .error .notMoment

def checkSubscription (body : Entries) : Checked String :=
  match Entries.field? body "subscription" with
  | none => .error [.ofField .missing "subscription" (.dict body)]
  | some (.str "") => .error [.ofField .emptyText "subscription" (.str "")]
  | some (.str s) => .ok s
  | some v => .error [.ofField .notText "subscription" v]

def checkId (message : Value) (fields : Entries) : Checked String :=
  match firstField? fields idNames with
  | none => .error [.ofField .missing "messageId" message]
  | some (_, .str s) => .ok s
  | some (name, v) => .error [.ofField .notText name v]

def checkTime (fields : Entries) : Checked (Option DateTime) :=
  match firstField? fields timeNames with
  | none => .ok none
  | some (_, .null) => .ok none
  | some (name, v) =>
    match readMoment v with
    | .ok t => .ok (some t)
    | .error cause => .error [.ofField cause name v]

def keyFaults (field : String) : Key → List Fault
  | .str _ => []
  | k => [⟨.notText, [.str field, k.locator, .str "[key]"], k.toValue⟩]

def textFaults (field : String) (k : Key) : Value → List Fault
  | .str _ => []
  | v => [⟨.notText, [.str field, k.locator], v⟩]

def checkData (depth : Nat) (fields : Entries) : Checked Entries :=
  match Entries.field? fields "data" with
  | none => .ok []
  | some v =>
    match MessageData.decode depth v with
    | .error _ => .error [.ofField .undecodableData "data" v]
    | .ok entries =>
      match entries.flatMap fun e => keyFaults "data" e.1 with
      | [] => .ok entries
      | faults => .error faults

def checkAttributes (fields : Entries) : Checked Entries :=
  match Entries.field? fields "attributes" with
  | none => .ok []
  | some v =>
    match v.entries? with
    | none => .error [.ofField .notObject "attributes" v]
    | some entries =>
      let entryFaults (e : Key × Value) :=
        keyFaults "attributes" e.1 ++ textFaults "attributes" e.1 e.2
      match entries.flatMap entryFaults with
      | [] => .ok entries
      | faults => .error faults

/-- The fields of the message; below anything but a mapping there are none to check. -/
def checkMessage (body : Entries) : Checked (Value × Entries) :=
  match Entries.field? body "message" with
  | none => .error [.ofField .missing "message" (.dict body)]
  | some v =>
    match v.entries? with
    | some fields => .ok (v, fields)
    | none => .error [.ofField .notMessage "message" v]

def ofFields (depth : Nat) (body : Entries) : Checked Envelope :=
  let subscription := checkSubscription body
  match checkMessage body with
  | .error faults => .error (subscription.faults ++ faults)
  | .ok (message, fields) =>
    match subscription, checkId message fields, checkTime fields, checkData depth fields,
        checkAttributes fields with
    | .ok subscription, .ok id, .ok time, .ok data, .ok attributes =>
      .ok ⟨some subscription, some id, time, some data, attributes⟩
    | subscription, id, time, data, attributes =>
      .error (Checked.faults subscription
        ++ (Checked.faults id ++ Checked.faults time ++ Checked.faults data
          ++ Checked.faults attributes).map (Fault.within "message"))

/-- What keeps the data of a message from being read to its end. -/
def dataHalt? (depth : Nat) (fields : Entries) : Option Json.Halt :=
  match (Entries.field? fields "data").map (MessageData.decode depth) with
  | some (.error (.halted cause)) => some cause
  | _ => none

def bodyHalt? (depth : Nat) (body : Entries) : Option Json.Halt :=
  ((Entries.field? body "message").bind Value.entries?).bind (dataHalt? depth)

/--
An envelope passes as it is. Where the data cannot be read to its end, no field is reported on.
-/
def decode (depth : Nat) (raw : Value) : Except (Stop EnvelopeError) Envelope :=
  match ofValue? raw with
  | some e => .ok e
  | none =>
    match raw with
    | .dict body =>
      match bodyHalt? depth body with
      | some cause => .error (.halted cause)
      | none => (ofFields depth body).mapError (.refused ∘ .faults)
    | v => .error (.refused (.notObject v.typeName))

def dictEntries : Option Value → Entries
  | some (.dict entries) => entries
  | _ => []

def messageFields (raw : Value) : Entries :=
  dictEntries (Entries.field? (dictEntries (some raw)) "message")

/-- Fields are taken over only when they have the type that the contract asks; the time never is. -/
def pieces (depth : Nat) (raw : Value) : Envelope :=
  let fields := messageFields raw
  { subscription := (Entries.field? (dictEntries (some raw)) "subscription").bind Value.str?
    id := (firstField? fields idNames).bind fun f => f.2.str?
    publishTime := none
    data := match Entries.field? fields "data" with
      | none => some []
      | some v => (MessageData.decode depth v).toOption
    attributes := dictEntries (Entries.field? fields "attributes") }

def salvage (depth : Nat) (raw : Value) : Except Json.Halt Envelope :=
  match dataHalt? depth (messageFields raw) with
  | some cause => .error cause
  | none => .ok (pieces depth raw)

def dataLog (depth : Nat) (fields : Entries) : List LogRecord :=
  match Entries.field? fields "data" with
  | none => []
  | some v => MessageData.log (MessageData.decode depth v)

def decodeLog (depth : Nat) (raw : Value) : List LogRecord :=
  match raw with
  | .dict body =>
    match checkMessage body with
    | .ok (_, fields) => dataLog depth fields
    | .error _ => []
  | _ => []

def salvageLog (depth : Nat) (raw : Value) : List LogRecord := dataLog depth (messageFields raw)

end PushDispatch.Envelope
