import PushDispatch.Proofs.DateTime.Calendar
import PushDispatch.Proofs.Server.Gate
import PushDispatch.Proofs.Token.Segments

/-! A token is accepted from the moment it is issued until the second in which it expires. This
holds for every secret that stands for itself when a signature is checked; a secret that is JSON of
another kind stands for the keys it holds, which are not what the issuer signs with. -/
namespace PushDispatch

namespace Token

theorem bounds_of_isOnCalendar {micros : Int} (h : isOnCalendar micros) :
    DateTime.firstSecond ≤ Span.wholeSeconds micros ∧
      Span.wholeSeconds micros ≤ DateTime.lastSecond := by
  simpa [isOnCalendar] using h

theorem isOnCalendar_of_micros {r : ClockReading} {m : Int} (h : r.micros = .ok m) :
    isOnCalendar m := by
  cases r with
  | error cause => cases h
  | ok i =>
    rw [ClockReading.micros, ok_bind] at h
    cases date : i.dateTime with
    | error cause => rw [date] at h; cases h
    | ok t =>
      rw [date] at h
      cases h
      rw [Instant.dateTime] at date
      cases whole : DateTime.ofSeconds (Span.wholeSeconds i.micros)
          (i.micros.fmod Span.microsPerSecond).toNat with
      | error cause => simp only [whole] at date; cases date
      | ok t =>
        have part : (i.micros.fmod Span.microsPerSecond).toNat < 1000000 := by
          rw [Int.fmod_eq_emod_of_nonneg _ (Int.natCast_nonneg _), Span.microsPerSecond]
          omega
        have range := DateTime.range_of_ofSeconds whole
        rw [isOnCalendar, decide_eq_true_eq]
        omega

private theorem wholeSeconds_eq (micros : Int) : Span.wholeSeconds micros = micros / 1000000 :=
  Int.fdiv_eq_ediv_of_nonneg micros (Int.natCast_nonneg _)

theorem ofValue_lifetime {m ttl : Int} (start : isOnCalendar m)
    (ending : isOnCalendar (m + Span.ofSeconds ttl)) :
    Span.ofValue (.int ttl) = .ok (Span.ofSeconds ttl) := by
  have first := bounds_of_isOnCalendar start
  have last := bounds_of_isOnCalendar ending
  rw [wholeSeconds_eq] at first last
  have short : ¬ Span.maxDays < ((Span.ofSeconds ttl).fdiv Span.microsPerDay).natAbs := by
    rw [Int.fdiv_eq_ediv_of_nonneg _ (Int.natCast_nonneg _)]
    simp only [Span.ofSeconds, Span.microsPerSecond, Span.microsPerDay, Span.maxDays,
      DateTime.firstSecond, DateTime.lastSecond] at first last ⊢
    omega
  rw [Span.ofValue, Span.check, if_neg short]

theorem isPlain_claims (subject : String) {expires issued : Int}
    (he : Numeral.isWritable expires) (hi : Numeral.isWritable issued) :
    (claims (.str subject) expires issued).isPlain := by
  refine Value.isPlain_ofFields (by simp) ?_
  simp [Value.isPlain, he, hi]

theorem isWritable_of_isOnCalendar {micros : Int} (h : isOnCalendar micros) :
    Numeral.isWritable (Span.wholeSeconds micros) := by
  have bounds := bounds_of_isOnCalendar h
  rw [DateTime.firstSecond, DateTime.lastSecond] at bounds
  exact Numeral.isWritable_of_natAbs_lt (by omega)

theorem issue_eq {secret subject : String} {ttl m : Int} {r : ClockReading} (hr : r.micros = .ok m)
    (ending : isOnCalendar (m + Span.ofSeconds ttl))
    (symmetric : Secret.looksAsymmetric secret.toList = false) :
    issue secret (.str subject) (.int ttl) r = .ok (String.ofList
      (encode (Encoding.encodeUtf8 secret.toList) header (claims (.str subject)
        (Span.wholeSeconds (m + Span.ofSeconds ttl)) (Span.wholeSeconds m)))) := by
  have start := isOnCalendar_of_micros hr
  rw [issue, hr, ofValue_lifetime start ending]
  simp only [mapError_ok, ok_bind, ending, Secret.textKey, symmetric]
  rfl

variable {es : Entries} {name : String} {r : ClockReading} {test : Int → Int → Bool}

theorem checkMoment_absent (h : Entries.field? es name = none) :
    checkMoment es name r test = .ok () := by
  rw [checkMoment, moment?, h]
  rfl

theorem checkMoment_int {t m : Int} (h : Entries.field? es name = some (.int t))
    (hr : r.micros = .ok m) :
    checkMoment es name r test
      = if test t (Span.wholeSeconds m) then .ok () else .error .invalid := by
  rw [checkMoment, moment?, h]
  simp only [seconds, Except.map, ok_bind, hr, mapError_ok]
  rfl

/-- The claims that are issued hold until the second in which they expire. -/
theorem checkClaims_claims {subject : String} {expires issued m : Int} (hr : r.micros = .ok m) :
    checkClaims (Entries.ofFields
        [("sub", .str subject), ("exp", .int expires), ("iat", .int issued)]) r
      = if Span.wholeSeconds m ≤ expires then .ok () else .error .invalid := by
  have field : ∀ name, Entries.field? (Entries.ofFields
      [("sub", .str subject), ("exp", .int expires), ("iat", .int issued)]) name
        = if "sub" = name then some (.str subject) else if "exp" = name then some (.int expires)
          else if "iat" = name then some (.int issued) else none := by
    intro name
    simp [Entries.ofFields, Entries.field?, Entries.lookup?, Key.same]
  rw [checkClaims, moment?, field, checkMoment_absent (by simp [field]),
    checkMoment_int (t := expires) (by simp [field]) hr]
  by_cases inTime : Span.wholeSeconds m ≤ expires
  · simp [inTime, seconds, isTextOrAbsent, Entries.hasField, field, Except.map]
  · simp [inTime, seconds, Except.map]

end Token

namespace Secret

/-- The secret is the one key that signatures are checked with: it is no JSON text, or a number, or
nested too deep to be read. -/
def StandsForItself (depth : Nat) (secret : String) : Prop :=
  Json.readText Json.numberText depth secret = .error .malformed ∨
    (∃ isObject, Json.readText Json.numberText depth secret
      = .error (.halted (.tooDeep isObject))) ∨
    Json.readText Json.numberText depth secret = .ok (.str secret)

theorem StandsForItself.candidates_eq {depth : Nat} {secret : String}
    (h : StandsForItself depth secret) : candidates depth secret = .ok [.str secret] := by
  obtain malformed | ⟨isObject, deep⟩ | number := h
  · rw [candidates, malformed]
  · rw [candidates, deep]
  · rw [candidates, number]

theorem key_str {s : String} (symmetric : looksAsymmetric s.toList = false) :
    key (.str s) = .ok (Encoding.encodeUtf8 s.toList) := by
  rw [key, textKey, symmetric]
  rfl

end Secret

namespace Token

theorem verify_encode {depth : Nat} {secret : String} (subject : String) {expires issued m : Int}
    {r : ClockReading} (level : 0 < depth) (itself : Secret.StandsForItself depth secret)
    (symmetric : Secret.looksAsymmetric secret.toList = false) (he : Numeral.isWritable expires)
    (hi : Numeral.isWritable issued) (hr : r.micros = .ok m) :
    verify depth (String.ofList (encode (Encoding.encodeUtf8 secret.toList) header
        (claims (.str subject) expires issued))) secret r
      = .ok (if Span.wholeSeconds m ≤ expires then some subject else none) := by
  have signed (message : List Char) :
      isSignedByAny message (signature (Encoding.encodeUtf8 secret.toList) message) [.str secret]
        = .ok true :=
    isSignedByAny_of_split [] [] nofun (Secret.key_str symmetric) message
  have accepted := accept_encode (Encoding.encodeUtf8 secret.toList) itself.candidates_eq
    (isPlain_claims subject he hi) level r
  simp only [signed, mapError_ok, ok_bind, checkClaims_claims hr] at accepted
  rw [verify, String.toList_ofList, claims, Value.ofFields, accepted]
  by_cases inTime : Span.wholeSeconds m ≤ expires
  · simp [inTime, Entries.ofFields, Value.str?]
  · simp [inTime]

/-- A header with the word bearer, a blank, and the token with blanks around it. -/
inductive Carries (token : String) : String → Prop where
  | intro {word before after : List Char} (hw : IsBearerWord word)
      (hb : ∀ c ∈ before, Blank.isBlank c) (ha : ∀ c ∈ after, Blank.isBlank c) :
      Carries token (String.ofList (word ++ ' ' :: (before ++ token.toList ++ after)))

private theorem blank_notMem_bearerWord {word : List Char} (h : IsBearerWord word) :
    ' ' ∉ word := by
  intro blank
  have lower : Char.toLower ' ' ∈ "bearer".toList := h ▸ List.mem_map_of_mem blank
  exact absurd lower (by decide)

theorem parts_of_carries {token header : String} (h : Carries token header)
    (visible : ∀ c ∈ token.toList, Blank.isBlank c = false) (nonempty : token.toList ≠ []) :
    IsBearerWord (scheme header) ∧ (∃ c ∈ credentials header, Blank.isBlank c = false) ∧
      bearer header = token := by
  obtain @⟨word, before, after, hw, hb, ha⟩ := h
  have front : ∀ c ∈ word, decide (c ≠ ' ') = true := by
    intro c hc
    rw [decide_eq_true_eq]
    rintro rfl
    exact blank_notMem_bearerWord hw hc
  have hs : scheme (String.ofList (word ++ ' ' :: (before ++ token.toList ++ after))) = word := by
    rw [scheme, String.toList_ofList, List.takeWhile_append_of_pos front]
    simp
  have hc : credentials (String.ofList (word ++ ' ' :: (before ++ token.toList ++ after)))
      = before ++ token.toList ++ after := by
    rw [credentials, String.toList_ofList, List.dropWhile_append_of_pos front]
    simp
  refine ⟨hs.symm ▸ hw, ?_, ?_⟩
  · obtain ⟨c, hmem⟩ := List.exists_mem_of_ne_nil _ nonempty
    refine ⟨c, ?_, visible c hmem⟩
    rw [hc]
    simp [hmem]
  · rw [bearer, hc, Blank.trim_append hb visible ha nonempty, String.ofList_toList]

/-- A push whose header carries a token is dispatched if the token names a subject that is
accepted, and is refused without one. -/
theorem request_of_carries {token secret header : String} {now : ClockReading}
    {subject : Option String} (carried : Carries token header)
    (visible : ∀ c ∈ token.toList, Blank.isBlank c = false) (nonempty : token.toList ≠ [])
    {s : Server} (verified : verify s.room.token token secret now = .ok subject) {site : Site}
    {r : Request} (up : s.site = some site) (configured : s.options.HasSecret secret)
    (push : site.route r = .ok .push) (carries : r.authorization = some header) :
    s.request r now
      = some (if subject.isSome then s.dispatch site.table r else Server.refusal) := by
  obtain ⟨word, content, own⟩ := parts_of_carries carried visible nonempty
  rw [← own] at verified
  cases subject with
  | some subject =>
    have proven : Proven s.room.token secret now r.authorization :=
      carries ▸ .accepted word content verified
    exact Server.request_of_admits up push (.inr ⟨secret, configured, proven⟩)
  | none =>
    have unproven : Unproven s.room.token secret now r.authorization := carries ▸ .refused verified
    exact Server.request_of_unproven up push configured unproven

/-- A token is accepted until the second in which it expires, and not after; every header that
carries it hands it over; and a server with the secret dispatches the push in the first case only.
-/
theorem issued_until_expiry {depth : Nat} (secret subject : String) (ttl : Int) {m₀ m₁ : Int}
    {t₀ t₁ : ClockReading} (level : 0 < depth) (nonempty : secret ≠ "")
    (symmetric : Secret.looksAsymmetric secret.toList = false)
    (itself : Secret.StandsForItself depth secret) (issued : t₀.micros = .ok m₀)
    (ending : isOnCalendar (m₀ + Span.ofSeconds ttl)) (checked : t₁.micros = .ok m₁) :
    let inTime := Span.wholeSeconds m₁ ≤ Span.wholeSeconds (m₀ + Span.ofSeconds ttl)
    ∃ token, issue secret (.str subject) (.int ttl) t₀ = .ok token ∧
      verify depth token secret t₁ = .ok (if inTime then some subject else none) ∧
      ∀ header, Carries token header → ofHeader? (some header) = some token ∧
        ∀ (s : Server) (site : Site) (r : Request), s.room.token = depth → s.site = some site →
          s.options.tokenSecret = some secret → site.route r = .ok .push →
          r.authorization = some header →
          s.request r t₁ = some (if inTime then s.dispatch site.table r else Server.refusal) := by
  intro inTime
  have verified := verify_encode subject level itself symmetric
    (isWritable_of_isOnCalendar ending) (isWritable_of_isOnCalendar (isOnCalendar_of_micros issued))
    checked
  refine ⟨_, issue_eq issued ending symmetric, verified, fun header carried => ?_⟩
  -- a token has no blank in it and is not empty, so it is what a header carries beside blanks
  generalize written : String.ofList (encode _ _ _) = token at verified carried ⊢
  have visible : ∀ c ∈ token.toList, Blank.isBlank c = false := by
    rw [← written, String.toList_ofList]
    exact not_blank_of_encode _ _ _
  have long : token.toList ≠ [] := by
    rw [← written, String.toList_ofList, encode]
    simp
  obtain ⟨word, -, own⟩ := parts_of_carries carried visible long
  have handed : Blank.trim (credentials header) = token.toList := by
    rw [← own, bearer, String.toList_ofList]
  refine ⟨by rw [ofHeader?_some, handed, if_pos ⟨word, long⟩, String.ofList_toList], ?_⟩
  rintro s site r rfl up configured push carries
  rw [request_of_carries carried visible long verified up ⟨configured, nonempty⟩ push carries]
  by_cases accepted : inTime
  · rw [if_pos accepted, if_pos accepted]
    rfl
  · rw [if_neg accepted, if_neg accepted]
    rfl

theorem issued_until_expiry_last_second :
    let epoch : ClockReading := .ok ⟨0, 0⟩
    (∃ token, issue "s3cret" (.str "a\"é") (.int 60) epoch = .ok token ∧
      verify 900 token "s3cret" (.ok ⟨60, 60999999⟩) = .ok (some "a\"é")) ∧
    ∃ token, issue "s3cret" (.str "a\"é") (.int 60) epoch = .ok token ∧
      verify 900 token "s3cret" (.ok ⟨61, 61000000⟩) = .ok none := by
  intro epoch
  have symmetric : Secret.looksAsymmetric "s3cret".toList = false := by decide +kernel
  have itself : Secret.StandsForItself 900 "s3cret" := .inl rfl
  have ending : isOnCalendar (0 + Span.ofSeconds 60) := by decide
  have start : epoch.micros = .ok 0 := rfl
  have inside : ClockReading.micros (.ok ⟨60, 60999999⟩) = .ok 60999999 := rfl
  have outside : ClockReading.micros (.ok ⟨61, 61000000⟩) = .ok 61000000 := rfl
  obtain ⟨first, issued, early, -⟩ := issued_until_expiry "s3cret" "a\"é" 60 (by decide)
    (by decide) symmetric itself start ending inside
  obtain ⟨second, again, late, -⟩ := issued_until_expiry "s3cret" "a\"é" 60 (by decide)
    (by decide) symmetric itself start ending outside
  exact ⟨⟨first, issued, early⟩, second, again, late⟩

/-- A quoted text as secret signs as it is written, but is checked as the text in the quotes: the
token that it issues it refuses in the same second. -/
theorem quoted_secret_refuses_issued :
    let epoch : ClockReading := .ok ⟨0, 0⟩
    let secret := "\"k\""
    secret ≠ "" ∧ Secret.looksAsymmetric secret.toList = false ∧ epoch.micros = .ok 0 ∧
      isOnCalendar (0 + Span.ofSeconds 60) ∧
      Span.wholeSeconds 0 ≤ Span.wholeSeconds (0 + Span.ofSeconds 60) ∧
      ∃ token, issue secret (.str "push") (.int 60) epoch = .ok token ∧
        verify 900 token secret epoch = .ok none := by
  intro epoch secret
  have symmetric : Secret.looksAsymmetric secret.toList = false := by decide +kernel
  have ending : isOnCalendar (0 + Span.ofSeconds 60) := by decide
  have refused : (verify 900 (String.ofList (encode (Encoding.encodeUtf8 secret.toList) header
      (claims (.str "push") (Span.wholeSeconds (0 + Span.ofSeconds 60)) (Span.wholeSeconds 0))))
      secret epoch).toOption = some none := by decide +kernel
  exact ⟨by decide, symmetric, rfl, ending, by decide, _, issue_eq rfl ending symmetric,
    eq_ok_of_toOption refused⟩

end Token
end PushDispatch
