import PushDispatch.Proofs.Json.Shape
import PushDispatch.Proofs.Server.Gate
import PushDispatch.Proofs.Server.Runs
import PushDispatch.Proofs.Server.Sending

/-! What a push is answered with. A message that no handler takes is acknowledged without a body; a
handler that returns a JSON value is answered for, unless a number in it has no JSON text; and a
push that fails was failed by the one handler that it ran, or its body is nested too deep. -/
namespace PushDispatch

namespace Response

def ofJson : Value → Response
  | .null => { status := 200 }
  | .str s => text 200 s
  | v => json 200 (Json.writeText Json.Style.compact (JsonBody.sent v))

@[simp] theorem status_ofJson (v : Value) : (ofJson v).status = 200 := by
  cases v <;> rfl

theorem ofReply_of_isJson {depth : Nat} {v : Value} (json : v.isJson) (writable : v.isWritable)
    (level : v.depth ≤ depth) :
    ofReply depth (.value v)
      = if JsonBody.isFinite (JsonBody.sent v) then .ok (ofJson v) else .error .notFinite := by
  have asText : (JsonBody.text depth v).map (Response.json 200)
      = if JsonBody.isFinite (JsonBody.sent v)
        then .ok (Response.json 200 (Json.writeText Json.Style.compact (JsonBody.sent v)))
        else .error .notFinite := by
    rw [JsonBody.text_of_isJson json writable level]
    split <;> rfl
  cases v with
  | null | str => rfl
  | bool | int | float | list | dict => exact asText
  | tuple | proxy | thunk | message | envelope => cases json

end Response

variable {ρ : Type}

/-- The ways in which a dispatch can end: no handler takes the message, or one does, and what it
replies is all there is. -/
inductive Delivery.Ends (d : Delivery ρ) : Prop where
  | untaken {result : DispatchResult} (nobody : d.invocations = [])
      (outcome : d.outcome = .ok result) (unhandled : result.outcome ≠ .handled)
  | taken {i : Invocation ρ} {result : Reply → DispatchResult} (one : d.invocations = [i])
      (outcome : d.outcome = (i.reply.map result).mapError .handler)
      (handled : ∀ reply, (result reply).outcome = .handled ∧ (result reply).value = reply)

namespace Dispatch

theorem ends_deliver {table : Table (Handler ρ)} (numbered : table.IsNumbered) (e : Envelope)
    (c : Context ρ) : (deliver table e c).Ends := by
  unfold deliver
  cases found : table.resolve? e with
  | some index =>
    obtain ⟨handler, here⟩ := numbered.exists_handlerAt? found
    simp only [here]
    exact .taken rfl rfl fun _ => ⟨rfl, rfl⟩
  | none =>
    cases table.catchAll with
    | some handler => exact .taken rfl rfl fun _ => ⟨rfl, rfl⟩
    | none => exact .untaken rfl rfl nofun

theorem ends_reject {depth : Nat} {raw : Value} {cause : EnvelopeError}
    (refused : Envelope.decode depth raw = .error (.refused cause)) (table : Table (Handler ρ))
    (c : Context ρ) : (reject depth table raw cause c).Ends := by
  unfold reject
  cases table.catchAll with
  | some handler =>
    simp only [Envelope.salvage_of_refused refused]
    exact .taken rfl rfl fun _ => ⟨rfl, rfl⟩
  | none => exact .untaken rfl rfl nofun

theorem ends_dispatch {depth : Nat} {table : Table (Handler ρ)} (numbered : table.IsNumbered)
    {raw : Value} (read : ∀ cause, Envelope.decode depth raw ≠ .error (.halted cause))
    (c : Context ρ) : (dispatch depth table raw c).Ends := by
  have ended : ∀ {d : Delivery ρ} {log}, d.Ends → Delivery.Ends { d with log } := by
    intro d log h
    cases h with
    | untaken nobody outcome unhandled => exact .untaken nobody outcome unhandled
    | taken one outcome handled => exact .taken one outcome handled
  unfold dispatch
  split
  · next e _ => exact ended (ends_deliver numbered e c)
  · next refused => exact ended (ends_reject refused table c)
  · next cause halted => exact absurd halted (read cause)

end Dispatch

/-- The ways in which a push that was let in can end. -/
inductive Exchange.Ends (depth : Nat) (x : Exchange) : Prop where
  | acknowledged (nobody : x.invocations = []) (response : x.response = { status := 204 })
      (failure : x.failure = none)
  | raised {i : Invocation Request} {cause : Failure} (one : x.invocations = [i])
      (replied : i.reply = .error cause) (failure : x.failure = some (.dispatch (.handler cause)))
  | answered {i : Invocation Request} {reply : Reply} (one : x.invocations = [i])
      (replied : i.reply = .ok reply) (response : Response.ofReply depth reply = .ok x.response)
      (failure : x.failure = none)
  | unanswerable {i : Invocation Request} {reply : Reply} {cause : JsonError}
      (one : x.invocations = [i]) (replied : i.reply = .ok reply)
      (refused : Response.ofReply depth reply = .error cause)
      (failure : x.failure = some (.response cause))

theorem Exchange.ends_ofDelivery (path : String) (depth : Nat) {d : Delivery Request}
    (h : d.Ends) : (ofDelivery path depth d).Ends depth := by
  cases h with
  | @untaken result nobody outcome unhandled =>
    have response : Response.ofResult depth result = .ok { status := 204 } := if_neg unhandled
    unfold ofDelivery
    rw [outcome]
    simp only [response]
    exact .acknowledged nobody rfl rfl
  | @taken i result one outcome handled =>
    unfold ofDelivery
    cases replied : i.reply with
    | error cause =>
      rw [outcome, replied]
      exact .raised one replied rfl
    | ok value =>
      have answer : Response.ofResult depth (result value) = Response.ofReply depth value := by
        rw [Response.ofResult, if_pos (handled value).1, (handled value).2]
      rw [outcome, replied]
      simp only [Except.map, mapError_ok, answer]
      cases response : Response.ofReply depth value with
      | ok answered => exact .answered one replied response rfl
      | error cause => exact .unanswerable one replied response rfl

theorem Exchange.Ends.answer {depth : Nat} {x : Exchange} (h : x.Ends depth)
    {i : Invocation Request} (ran : i ∈ x.invocations) {reply : Reply}
    (replied : i.reply = .ok reply)
    {response : Response} (sendable : Response.ofReply depth reply = .ok response) :
    x.response = response ∧ x.failure = none := by
  have only : ∀ {j}, x.invocations = [j] → j.reply = .ok reply := by
    intro j one
    rw [one, List.mem_singleton] at ran
    rw [← ran, replied]
  cases h with
  | acknowledged nobody =>
    rw [nobody] at ran
    cases ran
  | raised one raised => cases (only one).symm.trans raised
  | answered one replied' answer failure =>
    cases (only one).symm.trans replied'
    exact ⟨Except.ok.inj (answer.symm.trans sendable), failure⟩
  | unanswerable one replied' refused =>
    cases (only one).symm.trans replied'
    cases sendable.symm.trans refused

/-- The body of a push, or the data in it, cannot be read to its end. -/
inductive Room.Halts (room : Room) (body : Bytes) : Json.Halt → Prop where
  | body {cause} (unread : Exchange.payload room.body body = .error cause) : Halts room body cause
  | data {raw cause} (read : Exchange.payload room.body body = .ok raw)
      (unread : Envelope.decode room.data raw = .error (.halted cause)) : Halts room body cause

namespace Server

variable {s : Server} {site : Site} {r : Request} {now : ClockReading}

theorem IsSound.ends_dispatch (h : s.IsSound) (up : s.site = some site)
    (read : ∀ cause, ¬ s.room.Halts r.body cause) :
    (s.dispatch site.table r).Ends s.room.answer := by
  have numbered : site.table.IsNumbered := by
    rw [(h.table site up).1]
    exact h.numbered.table
  unfold dispatch
  cases payload : Exchange.payload s.room.body r.body with
  | error cause => exact absurd (.body payload) (read cause)
  | ok raw =>
    refine Exchange.ends_ofDelivery _ _ (Dispatch.ends_dispatch numbered (fun cause unread => ?_) _)
    exact read cause (.data payload unread)

theorem dispatch_of_halts {cause : Json.Halt} (halts : s.room.Halts r.body cause)
    (table : Table (Handler Request)) :
    (s.dispatch table r).invocations = [] ∧ (s.dispatch table r).response = .failed := by
  unfold dispatch
  cases halts with
  | body unread =>
    rw [unread]
    exact ⟨rfl, rfl⟩
  | data read unread =>
    rw [read]
    simp only [Dispatch.dispatch, unread]
    exact ⟨rfl, rfl⟩

/-- A push that is let in is acknowledged or answered, as long as its body can be read to its end
and its handler returns JSON without a number that is not finite, nested no deeper than an answer
can be. Where it fails, the one handler that it ran raised or returned something else, or no handler
ran since the body could not be read to its end. -/
theorem push_answered (name : String) (options : ServerOptions) (room : Room) (calls : List Call)
    (up : (after { name, options, room } calls).site = some site) (push : site.route r = .ok .push)
    (authorized : options.authorizes room.token r now = .ok true) :
    ∃ x, (after { name, options, room } calls).request r now = some x ∧
      ((∀ cause, ¬ room.Halts r.body cause) → x.invocations = [] →
        x.response = { status := 204 } ∧ x.failure = none) ∧
      (∀ i ∈ x.invocations, ∀ v, i.reply = .ok (.value v) → v.isJson → v.isWritable →
        JsonBody.isFinite v → v.depth ≤ room.answer →
        x.response = .ofJson v ∧ x.response.status = 200 ∧ x.failure = none) ∧
      (∀ cause, x.failure = some cause →
        (x.invocations = [] ∧ ∃ halt, room.Halts r.body halt) ∨ ∃ i, x.invocations = [i] ∧
          ((∃ raised, i.reply = .error raised ∧ cause = .dispatch (.handler raised)) ∨
            ∃ reply refused, i.reply = .ok reply ∧
              Response.ofReply room.answer reply = .error refused ∧ cause = .response refused)) ∧
      ∀ isObject, room.Halts r.body (.tooDeep isObject) →
        x.invocations = [] ∧ x.response = .failed := by
  have sound := (isSound_new name options room).after calls
  have frame := sameFrame_after { name, options, room } calls
  generalize after { name, options, room } calls = s at up sound frame ⊢
  obtain ⟨rfl, rfl, rfl⟩ : s.name = name ∧ s.options = options ∧ s.room = room :=
    ⟨frame.name, frame.options, frame.room⟩
  have dispatched : s.receive site.table r now = s.dispatch site.table r := by
    rw [receive, authorized]
  refine ⟨_, request_of_push up push now, ?_⟩
  rw [dispatched]
  -- what cannot be read to its end reaches no handler; all else comes to one of the four ends
  by_cases halts : ∃ cause, s.room.Halts r.body cause
  · obtain ⟨cause, halts⟩ := halts
    obtain ⟨idle, failed⟩ := dispatch_of_halts halts site.table
    refine ⟨fun read => absurd halts (read cause), fun i ran => ?_,
      fun _ _ => .inl ⟨idle, cause, halts⟩, fun _ _ => ⟨idle, failed⟩⟩
    rw [idle] at ran
    cases ran
  · rw [not_exists] at halts
    have ends := sound.ends_dispatch up halts
    refine ⟨fun _ idle => ?_, fun i ran v replied json writable finite level => ?_,
      fun cause failed => .inr ?_, fun isObject deep => absurd deep (halts _)⟩
    · cases ends with
      | acknowledged nobody response failure => exact ⟨response, failure⟩
      | raised one | answered one | unanswerable one => cases idle.symm.trans one
    · have sendable : Response.ofReply s.room.answer (.value v) = .ok (.ofJson v) := by
        rw [Response.ofReply_of_isJson json writable level,
          if_pos (JsonBody.hereditary_isFinite.value_sent v finite)]
      obtain ⟨response, failure⟩ := ends.answer ran replied sendable
      exact ⟨response, response ▸ Response.status_ofJson v, failure⟩
    · cases ends with
      | acknowledged _ _ failure | answered _ _ _ failure => cases failed.symm.trans failure
      | raised one replied failure =>
        exact ⟨_, one, .inl ⟨_, replied, Option.some.inj (failed.symm.trans failure)⟩⟩
      | unanswerable one replied refused failure =>
        exact ⟨_, one, .inr ⟨_, _, replied, refused, Option.some.inj (failed.symm.trans failure)⟩⟩

theorem push_answered_greatest_power :
    let data : Handler Request := ⟨"data", fun e _ => .ok (.value e.dataValue)⟩
    let options : ServerOptions := ⟨"/", "0.0.0.0", 8080, "development", none⟩
    let room : Room := ⟨900, 900, 900, 900⟩
    let calls : List Call := [.register ⟨.handler "data" data, .null⟩, .setUp]
    let site : Site := ⟨{ catchAll := some data }, options.healthcheckPath.toList.map .literal,
      options.path.toList.map .literal⟩
    let r : Request := ⟨"POST", "/", [], Encoding.encodeUtf8 ("\x7b\"subscription\":\"s\",".toList
      ++ "\"message\":\x7b\"messageId\":\"1\",\"data\":\x7b\"x\":1e308\x7d\x7d\x7d".toList)⟩
    (after { name := "f", options, room } calls).site = some site ∧ site.route r = .ok .push ∧
      options.authorizes room.token r (.ok ⟨0, 0⟩) = .ok true ∧
      ∃ x, (after { name := "f", options, room } calls).request r (.ok ⟨0, 0⟩) = some x ∧
        x.response = ⟨200, some "application/json", "\x7b\"x\":1e+308\x7d"⟩ := by
  intro data options room calls site r
  have up : (after { name := "f", options, room } calls).site = some site :=
    site_of_catchAll "data" data (by decide) (by decide +kernel) (by decide +kernel)
  have push : site.route r = .ok .push := eq_ok_of_toOption (by decide +kernel)
  have authorized : options.authorizes room.token r (.ok ⟨0, 0⟩) = .ok true := rfl
  obtain ⟨x, outcome, -⟩ := push_answered "f" options room calls up push authorized
  have response : ((after { name := "f", options, room } calls).request r (.ok ⟨0, 0⟩)).map
      (·.response) = some ⟨200, some "application/json", "\x7b\"x\":1e+308\x7d"⟩ := by
    decide +kernel
  rw [outcome] at response
  exact ⟨up, push, authorized, x, outcome, Option.some.inj response⟩

def soleNumber? : Value → Option (String × Double)
  | .dict [(.str name, .float d)] => some (name, d)
  | _ => none

theorem eq_of_soleNumber? {v : Value} {name : String} {d : Double}
    (h : soleNumber? v = some (name, d)) : v = .ofFields [(name, .float d)] := by
  unfold soleNumber? at h
  split at h
  · cases h
    rfl
  · cases h

/-- Data may hold what is no number, and then its answer cannot be written: the handler has returned
what it was given, and the push fails all the same. -/
theorem push_fails_on_undefined_number :
    let data : Handler Request := ⟨"data", fun e _ => .ok (.value e.dataValue)⟩
    let options : ServerOptions := ⟨"/", "0.0.0.0", 8080, "development", none⟩
    let room : Room := ⟨900, 900, 900, 900⟩
    let calls : List Call := [.register ⟨.handler "data" data, .null⟩, .setUp]
    let r : Request := ⟨"POST", "/", [], Encoding.encodeUtf8 ("\x7b\"subscription\":\"s\",".toList
      ++ "\"message\":\x7b\"messageId\":\"1\",\"data\":\x7b\"x\":NaN\x7d\x7d\x7d".toList)⟩
    let v := Value.ofFields [("x", .float .nan)]
    v.isJson ∧ v.isWritable ∧
    ∃ x i, (after { name := "f", options, room } calls).request r (.ok ⟨0, 0⟩) = some x ∧
      x.invocations = [i] ∧ i.reply = .ok (.value v) ∧ x.response.status = 500 ∧
      x.failure = some (.response .notFinite) := by
  intro data options room calls r v
  let site : Site := ⟨{ catchAll := some data }, options.healthcheckPath.toList.map .literal,
    options.path.toList.map .literal⟩
  have up : (after { name := "f", options, room } calls).site = some site :=
    site_of_catchAll "data" data (by decide) (by decide +kernel) (by decide +kernel)
  have push : site.route r = .ok .push := eq_ok_of_toOption (by decide +kernel)
  obtain ⟨raw, e, read, decoded, kept⟩ : ∃ raw e, Exchange.payload 900 r.body = .ok raw ∧
      Envelope.decode 900 raw = .ok e ∧ e.dataValue = v := by
    have computed : (Exchange.payload 900 r.body).toOption.bind (fun raw =>
        (Envelope.decode 900 raw).toOption.bind (soleNumber? ·.dataValue)) = some ("x", .nan) := by
      decide +kernel
    obtain ⟨raw, read, found⟩ := Option.bind_eq_some_iff.1 computed
    obtain ⟨e, decoded, sole⟩ := Option.bind_eq_some_iff.1 found
    exact ⟨raw, e, eq_ok_of_toOption read, eq_ok_of_toOption decoded, eq_of_soleNumber? sole⟩
  refine ⟨by decide, by decide, _,
    ⟨data, e, (after { name := "f", options, room } calls).context r⟩,
    request_of_push up push _, ?_⟩
  have replied :
      data.run e ((after { name := "f", options, room } calls).context r) = .ok (.value v) := by
    simp only [data, kept]
  have frame := sameFrame_after { name := "f", options, room } calls
  have dispatched : (after { name := "f", options, room } calls).receive site.table r (.ok ⟨0, 0⟩)
      = .ofDelivery options.path 900
        (Dispatch.dispatch 900 site.table raw
          ((after { name := "f", options, room } calls).context r)) := by
    unfold receive dispatch
    rw [frame.options, frame.room,
      show options.authorizes room.token r (.ok ⟨0, 0⟩) = .ok true from rfl]
    simp only [room, read]
  rw [dispatched]
  unfold Dispatch.dispatch
  simp only [decoded]
  refine ⟨rfl, replied, ?_⟩
  unfold Exchange.ofDelivery Dispatch.deliver Invocation.deliver Invocation.reply
  simp only [site, Table.resolve?, List.find?_nil, Option.map_none, replied]
  exact ⟨rfl, rfl⟩

end Server
end PushDispatch
