import PushDispatch.Proofs.Token.Lifetime

/-! Tokens that others issue with a key of the secret, over any claims. All that hold are accepted;
but a push is let in by the subject of its token, so one that names none does not open the gate. -/
namespace PushDispatch

namespace Secret

/-- A signature is checked with the key, and with nothing before it that is no key. -/
def StandsFor (depth : Nat) (secret : String) (key : Bytes) : Prop :=
  ∃ before candidate after, candidates depth secret = .ok (before ++ candidate :: after) ∧
    (∀ other ∈ before, ∃ k, Secret.key other = .ok k) ∧ Secret.key candidate = .ok key

theorem StandsForItself.standsFor {depth : Nat} {secret : String}
    (h : StandsForItself depth secret) (symmetric : looksAsymmetric secret.toList = false) :
    StandsFor depth secret (Encoding.encodeUtf8 secret.toList) :=
  ⟨[], .str secret, [], h.candidates_eq, nofun, key_str symmetric⟩

end Secret

namespace Token

variable {depth : Nat} {secret : String} {key : Bytes} {claims : Entries} {now : ClockReading}
  {m : Int}

/-- A token over claims: its header names the algorithm, its second part is a text of the claims,
and the key has signed both. -/
inductive Signed (depth : Nat) (key : Bytes) (claims : Entries) : List Char → Prop where
  | intro {head body : Bytes} {fields : Entries} (headed : readObject depth head = .ok fields)
      (named : Entries.field? fields "alg" = some (.str algorithm))
      (stated : readObject depth body = .ok claims) :
      Signed depth key claims (compact key head body)

theorem signed_encode (key : Bytes) (plain : (Value.dict claims).isPlain)
    (level : (Value.dict claims).depth ≤ depth) :
    Signed depth key claims (encode key header (.dict claims)) :=
  .intro (readObject_header (Nat.lt_of_lt_of_le (Nat.succ_pos _) level)) (by rfl)
    (readObject_write plain level)

theorem Signed.not_blank {token : List Char} (h : Signed depth key claims token) :
    ∀ c ∈ token, Blank.isBlank c = false := by
  cases h
  exact not_blank_of_compact _ _ _

theorem Signed.ne_nil {token : List Char} (h : Signed depth key claims token) : token ≠ [] := by
  cases h
  simp [compact]

/-- The claims hold at a second: their subject is a text, their moments are whole numbers, they do
not end before that second, and nothing else that is checked is claimed. -/
structure HoldAt (second : Int) (claims : Entries) : Prop where
  subject : Entries.field? claims "sub" = none ∨
    ∃ name, Entries.field? claims "sub" = some (.str name)
  issued : Entries.field? claims "iat" = none ∨ ∃ t, Entries.field? claims "iat" = some (.int t)
  expiry : Entries.field? claims "exp" = none ∨
    ∃ t, Entries.field? claims "exp" = some (.int t) ∧ second ≤ t
  others : ∀ name ∈ ["nbf", "aud", "jti", "at_hash"], Entries.field? claims name = none

namespace HoldAt

theorem exists_moment? {second : Int} (h : HoldAt second claims) :
    ∃ t, moment? claims "iat" = .ok t := by
  obtain absent | ⟨t, there⟩ := h.issued
  · exact ⟨none, by rw [moment?, absent]⟩
  · exact ⟨some t, by rw [moment?, there]; rfl⟩

theorem checkMoment_exp (h : HoldAt (Span.wholeSeconds m) claims) (clock : now.micros = .ok m) :
    checkMoment claims "exp" now (fun ending now => now ≤ ending) = .ok () := by
  obtain absent | ⟨t, there, inTime⟩ := h.expiry
  · exact checkMoment_absent absent
  · rw [checkMoment_int there clock, if_pos (decide_eq_true inTime)]

theorem isTextOrAbsent_sub {second : Int} (h : HoldAt second claims) :
    isTextOrAbsent claims "sub" = true := by
  obtain absent | ⟨name, there⟩ := h.subject
  · rw [isTextOrAbsent, absent]
  · rw [isTextOrAbsent, there]

theorem isSome_subject {second : Int} (h : HoldAt second claims) :
    ((Entries.field? claims "sub").bind Value.str?).isSome = Entries.hasField claims "sub" := by
  obtain absent | ⟨name, there⟩ := h.subject
  · rw [Entries.hasField, absent]
    rfl
  · rw [Entries.hasField, there]
    rfl

theorem checkClaims_eq (h : HoldAt (Span.wholeSeconds m) claims) (clock : now.micros = .ok m) :
    checkClaims claims now = .ok () := by
  obtain ⟨t, issued⟩ := h.exists_moment?
  have absent : ∀ name ∈ ["nbf", "aud", "jti", "at_hash"],
      Entries.hasField claims name = false := by
    intro name other
    rw [Entries.hasField, h.others name other]
    rfl
  have identified : isTextOrAbsent claims "jti" = true := by
    rw [isTextOrAbsent, h.others "jti" (by decide)]
  rw [checkClaims, issued, checkMoment_absent (h.others "nbf" (by decide)),
    h.checkMoment_exp clock]
  simp only [ok_bind, absent "aud" (by decide), absent "at_hash" (by decide),
    h.isTextOrAbsent_sub, identified]
  rfl

end HoldAt

theorem Signed.accept_eq {token : List Char} (h : Signed depth key claims token)
    (stands : Secret.StandsFor depth secret key) (clock : now.micros = .ok m)
    (current : HoldAt (Span.wholeSeconds m) claims) :
    accept depth token secret now = .ok claims := by
  obtain ⟨before, candidate, after, candidates, keys, own⟩ := stands
  obtain ⟨headed, named, stated⟩ := h
  rw [accept_compact key candidates headed named stated now]
  simp only [isSignedByAny_of_split before after keys own, mapError_ok, ok_bind,
    current.checkClaims_eq clock]
  rfl

theorem Signed.verify_eq {token : String} (h : Signed depth key claims token.toList)
    (stands : Secret.StandsFor depth secret key) (clock : now.micros = .ok m)
    (current : HoldAt (Span.wholeSeconds m) claims) :
    verify depth token secret now = .ok ((Entries.field? claims "sub").bind Value.str?) := by
  rw [verify, h.accept_eq stands clock current]

/-- Every token that a key of the secret has signed, over claims that hold now, is accepted with
the claims it was made of, among them one for every object that can be written. The check gives its
subject; so a push that carries it is dispatched if the token has a subject, and refused if not. -/
theorem signed_token_admits_by_subject (stands : Secret.StandsFor depth secret key)
    (clock : now.micros = .ok m) (current : HoldAt (Span.wholeSeconds m) claims) :
    ((Value.dict claims).isPlain → (Value.dict claims).depth ≤ depth →
      Signed depth key claims (encode key header (.dict claims))) ∧
    ∀ token : String, Signed depth key claims token.toList →
      accept depth token.toList secret now = .ok claims ∧
      verify depth token secret now = .ok ((Entries.field? claims "sub").bind Value.str?) ∧
      ∀ header, Carries token header → ∀ (s : Server) (site : Site) (r : Request),
        s.room.token = depth → s.site = some site → s.options.HasSecret secret →
        site.route r = .ok .push → r.authorization = some header →
        s.request r now
          = some (if Entries.hasField claims "sub" then s.dispatch site.table r
            else Server.refusal) := by
  refine ⟨signed_encode key, fun token signed => ?_⟩
  have verified := signed.verify_eq stands clock current
  refine ⟨signed.accept_eq stands clock current, verified, ?_⟩
  rintro header carried s site r rfl up configured push carries
  rw [← current.isSome_subject]
  exact request_of_carries carried signed.not_blank signed.ne_nil verified up configured push
    carries

theorem carries_bearer (token : String) : Carries token ("Bearer " ++ token) := by
  have word : IsBearerWord "Bearer".toList := by decide
  have plain : "Bearer " ++ token
      = String.ofList ("Bearer".toList ++ ' ' :: ([] ++ token.toList ++ [])) := by
    rw [← String.toList_inj]
    simp
  rw [plain]
  exact .intro word nofun nofun

private theorem authorization_singleton (method path value : String) (body : Bytes) :
    (Request.mk method path [("Authorization", value)] body).authorization = some value := by
  have lower : LetterCase.lowerLatin? "Authorization" = some "authorization" := by decide
  simp [Request.authorization, lower]

def rootSite (table : Table (Handler Request)) : Site :=
  ⟨table, "/healthcheck".toList.map .literal, ['/'].map .literal⟩

theorem route_rootSite (table : Table (Handler Request)) (headers : List (String × String))
    (body : Bytes) : (rootSite table).route ⟨"POST", "/", headers, body⟩ = .ok .push := by
  have probe : Site.reaches (rootSite table).healthcheck "/" = .ok false := rfl
  have push : Site.reaches (rootSite table).push "/" = .ok true := rfl
  simp [Site.route, probe, push]

theorem signed_token_admits_by_subject_second_key :
    let secret := "[\"old\", \"new\"]"
    let key := Encoding.encodeUtf8 "new".toList
    let claims : Entries := .ofFields
      [("sub", .str "p"), ("exp", .int 60), ("role", .list [.str "a", .null])]
    let now : ClockReading := .ok ⟨60, 60999999⟩
    let s : Server := { name := "f", options := ⟨"/", "0.0.0.0", 8080, "development", some secret⟩,
                        room := ⟨900, 900, 900, 900⟩, site := some (rootSite {}) }
    Secret.StandsFor 900 secret key ∧ now.micros = .ok 60999999 ∧
      HoldAt (Span.wholeSeconds 60999999) claims ∧
      ∃ token : String, Signed 900 key claims token.toList ∧
        verify 900 token secret now = .ok (some "p") ∧
        let r : Request := ⟨"POST", "/", [("Authorization", "Bearer " ++ token)], []⟩
        s.request r now = some (s.dispatch {} r) := by
  intro secret key claims now s
  have stands : Secret.StandsFor 900 secret key := by
    have written : "[\"old\", \"new\"]".toList = ['[', '"', 'o', 'l', 'd', '"', ',', ' ', '"',
        'n', 'e', 'w', '"', ']'] := by decide
    have listed : Json.readText Json.numberText 900 "[\"old\", \"new\"]" =
        .ok (.list [.str "old", .str "new"]) := by
      rw [Json.readText, written]
      rfl
    have old := Secret.key_str (s := "old") (by decide +kernel)
    have new := Secret.key_str (s := "new") (by decide +kernel)
    have keys : Secret.candidates 900 secret = .ok ([.str "old"] ++ .str "new" :: []) := by
      rw [Secret.candidates, show Json.readText Json.numberText 900 secret = _ from listed]
      rfl
    refine ⟨[.str "old"], .str "new", [], keys, fun other listed => ?_, new⟩
    exact ⟨_, List.mem_singleton.1 listed ▸ old⟩
  have clock : now.micros = .ok 60999999 := rfl
  have current : HoldAt (Span.wholeSeconds 60999999) claims :=
    ⟨.inr ⟨"p", rfl⟩, .inl rfl, .inr ⟨60, rfl, by decide⟩, by decide⟩
  obtain ⟨written, admitted⟩ := signed_token_admits_by_subject stands clock current
  have plain : (Value.dict claims).isPlain := by
    refine Value.isPlain_ofFields (by decide) ?_
    simp [Value.isPlain, Value.arePlain, Numeral.isWritable_of_natAbs_lt]
  have signed := written plain (by decide)
  rw [← String.toList_ofList (l := encode key header (.dict claims))] at signed
  obtain ⟨-, verified, dispatched⟩ := admitted _ signed
  refine ⟨stands, clock, current, _, signed, verified, ?_⟩
  have answered := dispatched _ (carries_bearer _) s (rootSite {}) _ rfl rfl ⟨rfl, by decide⟩
    (route_rootSite {} _ []) (authorization_singleton ..)
  rwa [if_pos (by rfl)] at answered

/-- A token that is signed with the secret, and says nothing but that it expires in a minute, is
accepted, yet its push is refused as if it were none. -/
theorem subjectless_token_refused :
    let secret := "s3cret"
    let key := Encoding.encodeUtf8 secret.toList
    let claims : Entries := .ofFields [("exp", .int 60)]
    let now : ClockReading := .ok ⟨0, 0⟩
    let s : Server := { name := "f", options := ⟨"/", "0.0.0.0", 8080, "development", some secret⟩,
                        room := ⟨900, 900, 900, 900⟩, site := some (rootSite {}) }
    secret ≠ "" ∧ Secret.StandsFor 900 secret key ∧ now.micros = .ok 0 ∧
      HoldAt (Span.wholeSeconds 0) claims ∧
      ∃ token : String, Signed 900 key claims token.toList ∧
        accept 900 token.toList secret now = .ok claims ∧
        verify 900 token secret now = .ok none ∧
        s.request ⟨"POST", "/", [("Authorization", "Bearer " ++ token)], []⟩ now
          = some Server.refusal := by
  intro secret key claims now s
  have itself : Secret.StandsForItself 900 "s3cret" := .inl rfl
  have stands : Secret.StandsFor 900 secret key := itself.standsFor (by decide +kernel)
  have clock : now.micros = .ok 0 := rfl
  have current : HoldAt (Span.wholeSeconds 0) claims :=
    ⟨.inl rfl, .inl rfl, .inr ⟨60, rfl, by decide⟩, by decide⟩
  have plain : (Value.dict claims).isPlain := by
    refine Value.isPlain_ofFields (by decide) ?_
    simp [Value.isPlain, Numeral.isWritable_of_natAbs_lt]
  have signed : Signed 900 key claims _ := signed_encode key plain (by decide)
  rw [← String.toList_ofList (l := encode key header (.dict claims))] at signed
  have verified := signed.verify_eq stands clock current
  refine ⟨by decide, stands, clock, current, _, signed, signed.accept_eq stands clock current,
    verified, ?_⟩
  have answered := request_of_carries (carries_bearer _) signed.not_blank signed.ne_nil verified
    (s := s) rfl ⟨rfl, by decide⟩ (route_rootSite {} _ []) (authorization_singleton ..)
  rwa [if_neg (by decide)] at answered

end Token
end PushDispatch
