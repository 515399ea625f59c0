import PushDispatch.Proofs.Json.Writing
import PushDispatch.Proofs.Server.Answers

/-! Answers read back as JSON. What a handler returns is answered with a body that is read as the
value without its internal members, at any depth. All other members are there with what is sent of
their values, so a value comes through whole exactly when it names no internal member. -/
namespace PushDispatch

namespace JsonBody

mutual

theorem sendable_of_isPlain (v : Value) (plain : v.isPlain) :
    v.isJson ∧ v.isWritable ∧ isFinite v := by
  cases v with
  | null | bool | str => exact ⟨rfl, rfl, rfl⟩
  | int n => exact ⟨rfl, plain, rfl⟩
  | list items => exact sendable_of_arePlain items plain
  | dict entries => exact sendable_of_entriesPlain entries plain
  | float | tuple | proxy | thunk | message | envelope => cases plain

theorem sendable_of_arePlain (items : List Value) (plain : Value.arePlain items) :
    Value.areJson items ∧ Value.areWritable items ∧ areFinite items := by
  cases items with
  | nil => exact ⟨rfl, rfl, rfl⟩
  | cons v rest =>
    rw [Value.arePlain, Bool.and_eq_true] at plain
    obtain ⟨json, writable, finite⟩ := sendable_of_isPlain v plain.1
    obtain ⟨others, writable', finite'⟩ := sendable_of_arePlain rest plain.2
    simp only [Value.areJson, Value.areWritable, areFinite, Bool.and_eq_true]
    exact ⟨⟨json, others⟩, ⟨writable, writable'⟩, finite, finite'⟩

theorem sendable_of_entriesPlain (entries : Entries) (plain : Value.entriesPlain entries) :
    Value.entriesJson entries ∧ Value.entriesWritable entries ∧ membersFinite entries := by
  match entries, plain with
  | [], _ => exact ⟨rfl, rfl, rfl⟩
  | (k, v) :: rest, plain =>
    rw [Value.entriesPlain, Bool.and_eq_true, Bool.and_eq_true, Value.isFreshName_iff] at plain
    obtain ⟨⟨⟨name, rfl, -⟩, plain⟩, others⟩ := plain
    obtain ⟨json, writable, finite⟩ := sendable_of_isPlain v plain
    obtain ⟨json', writable', finite'⟩ := sendable_of_entriesPlain rest others
    simp only [Value.entriesJson, Value.entriesWritable, membersFinite, Bool.and_eq_true]
    exact ⟨⟨⟨rfl, json⟩, json'⟩, ⟨⟨rfl, writable⟩, writable'⟩, ⟨rfl, finite⟩, finite'⟩

end

theorem hereditary_isPlain : Hereditary Value.isPlain Value.arePlain Value.entriesPlain where
  list _ := rfl
  dict _ := rfl
  nil := rfl
  cons _ _ := rfl
  empty := rfl
  parts := by simp_all [Value.entriesPlain]
  replace := by
    intro k v w rest rest' holds plain others kept
    rw [Value.entriesPlain, Bool.and_eq_true, Bool.and_eq_true, Value.isFreshName_iff] at holds
    obtain ⟨⟨⟨name, rfl, fresh⟩, -⟩, -⟩ := holds
    rw [Value.entriesPlain, Bool.and_eq_true, Bool.and_eq_true, Value.isFreshName_iff]
    exact ⟨⟨⟨name, rfl, kept name fresh⟩, plain⟩, others⟩

end JsonBody

namespace Response
open JsonBody

theorem ofJson_of_structured {v : Value} (notNull : v ≠ .null) (notText : ∀ s, v ≠ .str s) :
    ofJson v = json 200 (Json.writeText Json.Style.compact (sent v)) := by
  cases v with
  | null => exact absurd rfl notNull
  | str s => exact absurd rfl (notText s)
  | _ => rfl

/-- A boolean, an integer, a list or an object that a handler returned is answered with 200 and a
body that reads as what is sent of it: as the value itself unless some object in it has an internal
member, and as far as such members at any rate. -/
theorem ofResult_reads_back {depth : Nat} {r : DispatchResult} (handled : r.outcome = .handled)
    {v : Value} (returned : r.value = .value v) (plain : v.isPlain) (level : v.depth ≤ depth)
    (notNull : v ≠ .null) (notText : ∀ s, v ≠ .str s) :
    ∃ body, ofResult depth r = .ok (json 200 body) ∧
      Json.readText Json.boundedNumber depth body = .ok (sent v) ∧
      (sent v = v ↔ ∀ name, NamesMember name v → ¬ isInternal (.str name)) ∧
      ∀ path, (sent v).reach? path
        = if path.any fun name => isInternal (.str name) then none
          else (v.reach? path).map sent := by
  obtain ⟨isJson, writable, finite⟩ := sendable_of_isPlain v plain
  refine ⟨Json.writeText Json.Style.compact (sent v), ?_, ?_, sent_eq_self_iff,
    reach?_sent isJson⟩
  · rw [ofResult, if_pos handled, returned, ofReply_of_isJson isJson writable level,
      if_pos (hereditary_isFinite.value_sent v finite), ofJson_of_structured notNull notText]
  · rw [Json.readText, Json.writeText, String.toList_ofList]
    exact Json.readChars_write Json.isStandard_compact (hereditary_isPlain.value_sent v plain)
      ((depth_sent_le v).trans level)

theorem ofResult_reads_back_nested :
    let v := Value.ofFields [("rows", .list [.ofFields [("n", .int (-1)), ("_sb", .null)]]),
      ("ok", .bool true)]
    let r : DispatchResult := { outcome := .handled, catchAll := true, value := .value v }
    v.isPlain ∧ sent v = v ∧ ∃ body, ofResult 100 r = .ok (json 200 body) ∧
      Json.readText Json.boundedNumber 100 body = .ok v := by
  intro v r
  have plain : v.isPlain := by decide +kernel
  have whole : sent v = v := rfl
  obtain ⟨body, answer, read, -⟩ := ofResult_reads_back (r := r) (v := v) rfl rfl plain
    (show v.depth ≤ 100 by decide) nofun nofun
  rw [whole] at read
  exact ⟨plain, whole, body, answer, read⟩

/-- A member whose name has the mark of the internal ones is not in the answer. -/
theorem ofResult_drops_marked_member :
    let v := Value.ofFields [("_sa_x", .int 1), ("a", .int 2)]
    let w := Value.ofFields [("a", .int 2)]
    let r : DispatchResult := { outcome := .handled, catchAll := true, value := .value v }
    let body := "\x7b\"a\":2\x7d"
    v.isPlain ∧ ofResult 100 r = .ok (json 200 body) ∧
      Json.readText Json.boundedNumber 100 body = .ok w ∧ w ≠ v := by
  intro v w r body
  have answer : (ofResult 100 r).toOption = some (json 200 body) := by decide +kernel
  have written : body.toList = Json.write Json.Style.compact w := by decide +kernel
  refine ⟨by decide +kernel, eq_ok_of_toOption answer, ?_, fun same => ?_⟩
  · rw [Json.readText, written]
    exact Json.readChars_write Json.isStandard_compact (by decide +kernel) (by decide)
  · have lengths := congrArg List.length (Value.dict.inj same)
    cases lengths

end Response
end PushDispatch
