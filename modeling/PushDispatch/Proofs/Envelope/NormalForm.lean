import PushDispatch.Proofs.DateTime.RoundTrip
import PushDispatch.Proofs.Envelope.Decoding

/-! The normal form of an envelope: the body that spells out its fields in one fixed way. Whatever
the spelling of the body that an envelope came from, its normal form decodes to the same
envelope. -/
namespace PushDispatch.Envelope

def timeValue (time : Option DateTime) : Value := .ofText? (time.map DateTime.isoText)

/-- The fields of the message with their first names, the time as ISO text and the data as it is. -/
def normalFields (e : Envelope) : Entries :=
  .ofFields [("messageId", .ofText? e.id), ("publishTime", timeValue e.publishTime),
    ("data", e.dataValue), ("attributes", .dict e.attributes)]

def normalBody (e : Envelope) : Entries :=
  .ofFields [("subscription", .ofText? e.subscription), ("message", .dict e.normalFields)]

variable {depth : Nat} {body fields : Entries} {e : Envelope}

theorem onCalendar_of_readMoment {v : Value} {t : DateTime} (h : readMoment v = .ok t) :
    t.OnCalendar := by
  unfold readMoment at h
  split at h
  · exact DateTime.onCalendar_of_read (mapError_eq_ok_iff.1 h)
  · exact DateTime.onCalendar_of_ofUnixInt (mapError_eq_ok_iff.1 h)
  · exact DateTime.onCalendar_of_ofUnixDouble (mapError_eq_ok_iff.1 h)
  · cases h

theorem TimeOf.normal {time : Option DateTime} (h : TimeOf fields time) {fields' : Entries}
    (present : Entries.field? fields' "publishTime" = some (timeValue time)) :
    TimeOf fields' time := by
  cases h with
  | absent | null => exact .null (.first present)
  | moment there read =>
    apply TimeOf.moment (.first present)
    unfold timeValue readMoment
    simp only [Option.map_some, Value.ofText?,
      DateTime.read_isoText (onCalendar_of_readMoment read)]
    rfl

theorem DataOf.entriesJson {data : Entries} (json : Value.entriesJson fields)
    (h : DataOf depth fields data) : Value.entriesJson data := by
  cases h with
  | absent => rfl
  | object present => exact Value.isJson_of_field? json present
  | text present decoded =>
    have isJson := Value.isJson_of_field? json present
    exact entriesJson_of_decode isJson decoded

theorem AttributesOf.texts {attributes : Entries} (h : AttributesOf fields attributes) :
    ∀ entry ∈ attributes, ∃ s, entry.2 = .str s := by
  cases h with
  | absent => nofun
  | object present texts => exact texts

theorem AttributesOf.entriesJson {attributes : Entries} (json : Value.entriesJson fields)
    (h : AttributesOf fields attributes) : Value.entriesJson attributes := by
  cases h with
  | absent => rfl
  | object present => exact Value.isJson_of_field? json present

theorem isJson_ofText? (text : Option String) : (Value.ofText? text).isJson := by
  cases text <;> rfl

theorem entriesJson_normalBody (json : Value.entriesJson fields)
    (keeps : Keeps depth (.dict body) body fields e) : Value.entriesJson e.normalBody := by
  obtain ⟨data, here, shown⟩ := keeps.data
  have dataJson : e.dataValue.isJson := by
    unfold dataValue
    rw [shown]
    exact here.entriesJson json
  have attributesJson : (Value.dict e.attributes).isJson := keeps.attributes.entriesJson json
  simp only [normalBody, normalFields, Entries.ofFields, List.map_cons, List.map_nil,
    Value.entriesJson, Value.isJson, Key.text?, timeValue, isJson_ofText?, dataJson]
  simpa [Value.isJson] using attributesJson

/-- The data are an object, so the depth to which text would be read does not matter. -/
theorem keeps_normalBody (keeps : Keeps depth (.dict body) body fields e) (depth' : Nat) :
    Keeps depth' (.dict e.normalBody) e.normalBody e.normalFields e := by
  obtain ⟨s, nonempty, -, subscription⟩ := keeps.subscription
  obtain ⟨_, id, -, hid⟩ := keeps.id
  obtain ⟨data, -, shown⟩ := keeps.data
  constructor
  case object => rfl
  case subscription =>
    refine ⟨s, nonempty, ?_, subscription⟩
    unfold normalBody
    rw [subscription]
    rfl
  case message => rfl
  case id =>
    refine ⟨"messageId", id, .first ?_, hid⟩
    unfold normalFields
    rw [hid]
    rfl
  case publishTime => exact keeps.publishTime.normal rfl
  case data =>
    refine ⟨data, .object ?_, shown⟩
    unfold normalFields dataValue
    rw [shown]
    rfl
  case attributes => exact .object rfl keeps.attributes.texts

/-- Whatever its spelling, an accepted body and the normal form of its envelope decode to the same
envelope. -/
theorem decode_normalBody {raw : Value} (json : raw.isJson) (decoded : decode depth raw = .ok e) :
    (Value.dict e.normalBody).isJson ∧ ∀ depth', decode depth' (.dict e.normalBody) = .ok e := by
  obtain ⟨body, fields, keeps⟩ := (decode_eq_ok_iff_keeps json).1 decoded
  obtain rfl := keeps.object
  have fieldsJson : Value.entriesJson fields := Value.isJson_of_field? json keeps.message
  have normalJson := entriesJson_normalBody fieldsJson keeps
  refine ⟨normalJson, fun depth' => ?_⟩
  rw [decode_dict_eq_ok_iff normalJson, ofFields_eq_ok_iff_keeps normalJson]
  exact ⟨e.normalFields, keeps_normalBody keeps depth'⟩

theorem decode_normalBody_spaced_time :
    let raw := Value.ofFields [("message", .ofFields [("message_id", .str "1"),
      ("publish_time", .str "2024-02-29 23:59:59,1234567-0530"),
      ("data", .ofFields [("n", .int 1)])]), ("subscription", .str "s")]
    let e : Envelope := ⟨some "s", some "1", some ⟨2024, 2, 29, 23, 59, 59, 123456, some (-330)⟩,
      some [(.str "n", .int 1)], []⟩
    raw.isJson ∧ decode 100 raw = .ok e ∧
      timeValue e.publishTime = .str "2024-02-29T23:59:59.123456-05:30" ∧
      decode 100 (.dict e.normalBody) = .ok e := by
  intro raw e
  have time : readMoment (.str "2024-02-29 23:59:59,1234567-0530")
      = .ok ⟨2024, 2, 29, 23, 59, 59, 123456, some (-330)⟩ :=
    eq_ok_of_toOption (by decide +kernel)
  have decoded : decode 100 raw = .ok e :=
    (decode_dict_eq_ok_iff (by decide)).2 ((ofFields_eq_ok_iff_keeps (by decide)).2 ⟨_, {
      object := rfl
      subscription := ⟨"s", by decide, rfl, rfl⟩
      message := rfl
      id := ⟨_, "1", .second rfl rfl, rfl⟩
      publishTime := .moment (.second rfl rfl) time
      data := ⟨_, .object rfl, rfl⟩
      attributes := .absent rfl }⟩)
  have text : DateTime.isoText ⟨2024, 2, 29, 23, 59, 59, 123456, some (-330)⟩
      = "2024-02-29T23:59:59.123456-05:30" := by
    decide +kernel
  exact ⟨by decide, decoded, congrArg Value.str text, (decode_normalBody (by decide) decoded).2 100⟩

end PushDispatch.Envelope
