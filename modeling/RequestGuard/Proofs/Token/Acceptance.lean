import RequestGuard.Proofs.Token.Decoding
import RequestGuard.Proofs.Token.Revocation

namespace RequestGuard.Verifier

open Credential (Signed Says Expiry)

-- A token that is signed under the secret, says the claims and has not expired beyond the leeway.
def Decodes (settings : AuthSettings) (now : Nat) (token : String) (claims : Claims) : Prop :=
  ∃ payload expiry, Signed settings.secret token payload ∧ Says payload claims expiry ∧
    now ≤ expiry + settings.leeway

def OfAccess (claims : Claims) : Prop :=
  ∀ kind, claims.kind = some kind → kind = "access"

-- A credential goes by the id that its issuer gave it, and else by the fingerprint of its token.
inductive Names (token : String) (claims : Claims) : String → Prop
  | given {id : String} : claims.id = some id → id ≠ "" → Names token claims id
  | fingerprint : (∀ id, claims.id = some id → id = "") →
      Names token claims (hexText (Sha256.digest (bytesOf token)))

-- A credential that is good in itself, and the store says that it has not been revoked.
structure Cleared (settings : AuthSettings) (now storeNow : Nat) (token : String)
    (backend : Backend) (claims : Claims) (id : String) : Prop where
  decodes : Decodes settings now token claims
  access : OfAccess claims
  names : Names token claims id
  reached : backend.link ≠ .failing
  unrevoked : backend.store.live storeNow ("revoked:" ++ id) = none

-- A credential that is cleared and belongs to somebody active.
def Good (settings : AuthSettings) (resolver : Resolver) (now storeNow : Nat) (token : String)
    (backend : Backend) (verified : Verified) : Prop :=
  ∃ claims, Cleared settings now storeNow token backend claims verified.credentialId ∧
    resolver claims = .ok (some verified.identity) ∧ verified.identity.isActive = true

-- What is said of a credential that is not good: each refusal stands for a check that fails after
-- those before it have passed.
inductive Refused (settings : AuthSettings) (resolver : Resolver) (now storeNow : Nat)
    (token : String) (backend : Backend) : Refusal → Prop
  | undecoded {fault : Credential.Fault} :
      Credential.read settings.secret (.checked now settings.leeway) token = .error fault →
      fault ≠ .leewayOverflow →
      Refused settings resolver now storeNow token backend (rejected fault)
  | otherKind {claims : Claims} {kind : String} : Decodes settings now token claims →
      claims.kind = some kind → kind ≠ "access" →
      Refused settings resolver now storeNow token backend (invalid "wrong_type"
        ("credential of type '" ++ kind ++ "' cannot authenticate requests"))
  | unreached {claims : Claims} : Decodes settings now token claims → OfAccess claims →
      backend.link = .failing →
      Refused settings resolver now storeNow token backend (unavailable Backend.refusal)
  | revoked {claims : Claims} {id : String} : Decodes settings now token claims →
      OfAccess claims → Names token claims id → backend.link ≠ .failing →
      (backend.store.live storeNow ("revoked:" ++ id)).isSome = true →
      Refused settings resolver now storeNow token backend (revoked id)
  | unresolved {claims : Claims} {id : String} {failure : Failure} :
      Cleared settings now storeNow token backend claims id →
      resolver claims = .error failure →
      Refused settings resolver now storeNow token backend ⟨failure, none⟩
  | unknown {claims : Claims} {id : String} :
      Cleared settings now storeNow token backend claims id → resolver claims = .ok none →
      Refused settings resolver now storeNow token backend (invalid "unknown_subject"
        ("no identity for subject '" ++ claims.subject ++ "'"))
  | inactive {claims : Claims} {id : String} {identity : Identity} :
      Cleared settings now storeNow token backend claims id →
      resolver claims = .ok (some identity) → identity.isActive = false →
      Refused settings resolver now storeNow token backend
        ⟨.authorization ("identity " ++ identity.userId ++ " is inactive"),
          some (.inactiveIdentity identity.userId)⟩

variable {settings : AuthSettings} {resolver : Resolver} {now storeNow : Nat} {token id : String}
  {backend : Backend} {claims : Claims}

theorem ofAccess_iff : OfAccess claims ↔ checkKind claims = .ok () := by
  unfold OfAccess checkKind
  cases claims.kind with
  | none => simp
  | some kind => simp

theorem names_iff : Names token claims id ↔ id = Credential.idOf token claims := by
  constructor
  · intro h
    unfold Credential.idOf
    cases h with
    | given hid hne => simp [hid, hne]
    | fingerprint hnone =>
        split
        · next other hother => simp [hnone other hother]
        · rfl
  · rintro rfl
    unfold Credential.idOf
    split
    · next other hother =>
        split
        · next hempty => exact .fingerprint fun id hid => by simp_all
        · next hne => exact .given hother hne
    · next hnone => exact .fingerprint fun id hid => by simp_all

theorem verify_of_undecoded {fault : Credential.Fault}
    (hread : Credential.read settings.secret (.checked now settings.leeway) token = .error fault)
    (hfault : fault ≠ .leewayOverflow) :
    (verify settings resolver now storeNow token backend).1 = .ok (.error (rejected fault)) := by
  simp only [verify, hread]

-- The leeway is taken from the time. As long as it is no longer than all the time there has been,
-- each check has its answer behind those before it.

section Fitting

variable (hleeway : settings.leeway ≤ now)
include hleeway

theorem decodes_iff : Decodes settings now token claims ↔
    Credential.read settings.secret (.checked now settings.leeway) token = .ok claims := by
  simp only [Decodes, Credential.read_eq_ok_iff, Credential.check_eq_ok_iff, hleeway, true_and]

theorem verify_of_otherKind {kind : String} (hdecodes : Decodes settings now token claims)
    (hkind : claims.kind = some kind) (hother : kind ≠ "access") :
    (verify settings resolver now storeNow token backend).1 = .ok (.error (invalid "wrong_type"
      ("credential of type '" ++ kind ++ "' cannot authenticate requests"))) := by
  have hcheck : checkKind claims = .error (invalid "wrong_type"
      ("credential of type '" ++ kind ++ "' cannot authenticate requests")) := by
    simp [checkKind, hkind, hother]
  simp only [verify, (decodes_iff hleeway).mp hdecodes, hcheck]

theorem verify_of_unreached (hdecodes : Decodes settings now token claims)
    (haccess : OfAccess claims) (hlink : backend.link = .failing) :
    (verify settings resolver now storeNow token backend).1 =
      .ok (.error (unavailable Backend.refusal)) := by
  simp only [verify, (decodes_iff hleeway).mp hdecodes, ofAccess_iff.mp haccess,
    Backend.contains_failing storeNow _ hlink]

theorem verify_of_reached (hdecodes : Decodes settings now token claims)
    (haccess : OfAccess claims) (hnames : Names token claims id)
    (hlink : backend.link ≠ .failing) :
    (verify settings resolver now storeNow token backend).1 =
      .ok (if (backend.store.live storeNow ("revoked:" ++ id)).isSome then .error (revoked id)
        else resolve resolver claims id) := by
  obtain rfl := names_iff.mp hnames
  exact verify_of_open ((decodes_iff hleeway).mp hdecodes) (ofAccess_iff.mp haccess) hlink

theorem verify_of_cleared (h : Cleared settings now storeNow token backend claims id) :
    (verify settings resolver now storeNow token backend).1 = .ok (resolve resolver claims id) := by
  rw [verify_of_reached hleeway h.decodes h.access h.names h.reached, h.unrevoked]
  rfl

theorem verify_of_good {verified : Verified}
    (h : Good settings resolver now storeNow token backend verified) :
    (verify settings resolver now storeNow token backend).1 = .ok (.ok verified) := by
  obtain ⟨claims, hcleared, hresolver, hactive⟩ := h
  rw [verify_of_cleared hleeway hcleared, resolve, hresolver]
  simp only [hactive, if_true]

theorem verify_of_refused {refusal : Refusal}
    (h : Refused settings resolver now storeNow token backend refusal) :
    (verify settings resolver now storeNow token backend).1 = .ok (.error refusal) := by
  cases h with
  | undecoded hread hfault => exact verify_of_undecoded hread hfault
  | otherKind hdecodes hkind hother => exact verify_of_otherKind hleeway hdecodes hkind hother
  | unreached hdecodes haccess hlink => exact verify_of_unreached hleeway hdecodes haccess hlink
  | revoked hdecodes haccess hnames hlink hlive =>
      rw [verify_of_reached hleeway hdecodes haccess hnames hlink, if_pos hlive]
  | unresolved hcleared hresolver => rw [verify_of_cleared hleeway hcleared, resolve, hresolver]
  | unknown hcleared hresolver => rw [verify_of_cleared hleeway hcleared, resolve, hresolver]
  | inactive hcleared hresolver hinactive =>
      rw [verify_of_cleared hleeway hcleared, resolve, hresolver]
      simp only [hinactive, Bool.false_eq_true, if_false]

end Fitting

-- A credential is good unless a check fails, and then the first one that does says what is wrong.

theorem good_or_refused_of_cleared (h : Cleared settings now storeNow token backend claims id)
    (resolver : Resolver) :
    (∃ verified, Good settings resolver now storeNow token backend verified) ∨
    ∃ refusal, Refused settings resolver now storeNow token backend refusal := by
  cases hresolver : resolver claims with
  | error failure => exact .inr ⟨_, .unresolved h hresolver⟩
  | ok found =>
      cases found with
      | none => exact .inr ⟨_, .unknown h hresolver⟩
      | some identity =>
          cases hactive : identity.isActive with
          | true => exact .inl ⟨⟨identity, id⟩, claims, h, hresolver, hactive⟩
          | false => exact .inr ⟨_, .inactive h hresolver hactive⟩

theorem good_or_refused_of_decodes (h : Decodes settings now token claims) (resolver : Resolver)
    (storeNow : Nat) (backend : Backend) :
    (∃ verified, Good settings resolver now storeNow token backend verified) ∨
    ∃ refusal, Refused settings resolver now storeNow token backend refusal := by
  by_cases haccess : OfAccess claims
  · obtain ⟨id, hnames⟩ : ∃ id, Names token claims id := ⟨_, names_iff.mpr rfl⟩
    by_cases hlink : backend.link = .failing
    · exact .inr ⟨_, .unreached h haccess hlink⟩
    · cases hlive : backend.store.live storeNow ("revoked:" ++ id) with
      | some entry =>
          have hrevoked : (backend.store.live storeNow ("revoked:" ++ id)).isSome = true := by
            rw [hlive]
            rfl
          exact .inr ⟨_, .revoked h haccess hnames hlink hrevoked⟩
      | none => exact good_or_refused_of_cleared ⟨h, haccess, hnames, hlink, hlive⟩ resolver
  · simp only [OfAccess, not_forall] at haccess
    obtain ⟨kind, hkind, hother⟩ := haccess
    exact .inr ⟨_, .otherKind h hkind hother⟩

section Fitting

variable (hleeway : settings.leeway ≤ now)
include hleeway

theorem good_or_refused (resolver : Resolver) (storeNow : Nat) (token : String)
    (backend : Backend) :
    (∃ verified, Good settings resolver now storeNow token backend verified) ∨
    ∃ refusal, Refused settings resolver now storeNow token backend refusal := by
  cases hread : Credential.read settings.secret (.checked now settings.leeway) token with
  | error fault =>
      have hfault : fault ≠ .leewayOverflow := fun heq =>
        Credential.completes_read settings.secret token hleeway
          (hread.trans (congrArg Except.error heq))
      exact .inr ⟨_, .undecoded hread hfault⟩
  | ok claims => exact good_or_refused_of_decodes ((decodes_iff hleeway).mpr hread) ..

-- What an answer says is so, because an answer is of one kind only.

theorem verify_eq_ok_iff {verified : Verified} :
    (verify settings resolver now storeNow token backend).1 = .ok (.ok verified) ↔
      Good settings resolver now storeNow token backend verified := by
  refine ⟨fun h => ?_, verify_of_good hleeway⟩
  obtain ⟨other, hgood⟩ | ⟨refusal, hrefused⟩ :=
    good_or_refused hleeway resolver storeNow token backend
  · obtain rfl : other = verified := by simpa [verify_of_good hleeway hgood] using h
    exact hgood
  · simp [verify_of_refused hleeway hrefused] at h

theorem verify_eq_refusal_iff {refusal : Refusal} :
    (verify settings resolver now storeNow token backend).1 = .ok (.error refusal) ↔
      Refused settings resolver now storeNow token backend refusal := by
  refine ⟨fun h => ?_, verify_of_refused hleeway⟩
  obtain ⟨verified, hgood⟩ | ⟨other, hrefused⟩ :=
    good_or_refused hleeway resolver storeNow token backend
  · simp [verify_of_good hleeway hgood] at h
  · obtain rfl : other = refusal := by simpa [verify_of_refused hleeway hrefused] using h
    exact hrefused

theorem verify_ne_crash (crash : Crash) :
    (verify settings resolver now storeNow token backend).1 ≠ .error crash := by
  obtain ⟨verified, hgood⟩ | ⟨refusal, hrefused⟩ :=
    good_or_refused hleeway resolver storeNow token backend
  · simp [verify_of_good hleeway hgood]
  · simp [verify_of_refused hleeway hrefused]

-- No event is made of a refusal exactly when the store or the resolver has failed.
theorem event_eq_none_iff {refusal : Refusal}
    (h : Refused settings resolver now storeNow token backend refusal) :
    refusal.event = none ↔
      (∃ claims, Decodes settings now token claims ∧ OfAccess claims ∧ backend.link = .failing) ∨
      ∃ claims id failure, Cleared settings now storeNow token backend claims id ∧
        resolver claims = .error failure := by
  constructor
  · intro hnone
    cases h with
    | unreached hdecodes haccess hlink => exact .inl ⟨_, hdecodes, haccess, hlink⟩
    | unresolved hcleared hresolver => exact .inr ⟨_, _, _, hcleared, hresolver⟩
    | _ => contradiction
  · have hanswer := verify_of_refused hleeway h
    rintro (⟨claims, hdecodes, haccess, hlink⟩ | ⟨claims, id, failure, hcleared, hresolver⟩)
    · obtain rfl : unavailable Backend.refusal = refusal := by
        simpa [verify_of_unreached hleeway hdecodes haccess hlink] using hanswer
      rfl
    · obtain rfl : (⟨failure, none⟩ : Refusal) = refusal := by
        simpa [verify_of_refused hleeway (.unresolved hcleared hresolver)] using hanswer
      rfl

end Fitting

-- A longer leeway makes the check of the expiry break off, so no token gets beyond it.

theorem leeway_le_of_read
    (h : Credential.read settings.secret (.checked now settings.leeway) token = .ok claims) :
    settings.leeway ≤ now := by
  obtain ⟨payload, expiry, -, -, hcheck⟩ := Credential.read_eq_ok_iff.mp h
  exact (Credential.check_eq_ok_iff.mp hcheck).1

theorem leeway_le_of_accepted {verified : Verified}
    (h : (verify settings resolver now storeNow token backend).1 = .ok (.ok verified)) :
    settings.leeway ≤ now := by
  obtain ⟨claims, hread, -⟩ := read_of_accepted h
  exact leeway_le_of_read hread

theorem verify_of_overlong (hlong : now < settings.leeway)
    (h : Decodes settings now token claims) :
    (verify settings resolver now storeNow token backend).1 = .error .leewayOverflow := by
  obtain ⟨payload, expiry, hsigned, hsaid, -⟩ := h
  have hread : Credential.read settings.secret (.checked now settings.leeway) token =
      .error .leewayOverflow := by
    rw [Credential.read_of_said hsigned hsaid, Expiry.check, if_pos hlong]
    rfl
  simp only [verify, hread]

theorem now_lt_of_verify_crash {crash : Crash}
    (h : (verify settings resolver now storeNow token backend).1 = .error crash) :
    crash = .leewayOverflow ∧ now < settings.leeway := by
  have hlong : now < settings.leeway := Nat.lt_of_not_le fun hleeway => verify_ne_crash hleeway _ h
  refine ⟨?_, hlong⟩
  cases hread : Credential.read settings.secret (.checked now settings.leeway) token with
  | ok claims => exact absurd (leeway_le_of_read hread) (Nat.not_le.mpr hlong)
  | error fault =>
      by_cases hfault : fault = .leewayOverflow
      · subst hfault
        simpa [verify, hread, eq_comm] using h
      · simp [verify_of_undecoded hread hfault] at h

-- With a leeway that is no longer than the time itself exactly the good credentials are let in,
-- and of the others the first check that fails is told. A store that cannot be asked lets nobody
-- in, and a revocation wins over whatever the resolver would say. With a longer leeway the
-- verification breaks off where a credential would have been found not to have expired.
theorem verification_exact (settings : AuthSettings) (resolver : Resolver) (now storeNow : Nat)
    (token : String) (backend : Backend) :
    let answer (resolver : Resolver) := (verify settings resolver now storeNow token backend).1
    (settings.leeway ≤ now →
      (∀ verified, answer resolver = .ok (.ok verified) ↔
        Good settings resolver now storeNow token backend verified) ∧
      (∀ refusal, answer resolver = .ok (.error refusal) ↔
        Refused settings resolver now storeNow token backend refusal) ∧
      (∀ claims, Decodes settings now token claims → OfAccess claims → backend.link = .failing →
        ∃ refusal, answer resolver = .ok (.error refusal) ∧ refusal.failure.code = "EXT_001") ∧
      (∀ claims id, Decodes settings now token claims → OfAccess claims → Names token claims id →
        backend.link ≠ .failing →
        (backend.store.live storeNow ("revoked:" ++ id)).isSome = true →
        ∀ other, IsRevoked id (answer other)) ∧
      (∀ refusal, answer resolver = .ok (.error refusal) → (refusal.event = none ↔
        (∃ claims, Decodes settings now token claims ∧ OfAccess claims ∧
          backend.link = .failing) ∨
        ∃ claims id failure, Cleared settings now storeNow token backend claims id ∧
          resolver claims = .error failure))) ∧
    (∀ crash, answer resolver = .error crash → crash = .leewayOverflow ∧ now < settings.leeway) ∧
    (now < settings.leeway →
      (∀ claims, Decodes settings now token claims → answer resolver = .error .leewayOverflow) ∧
      ∀ verified, answer resolver ≠ .ok (.ok verified)) := by
  intro answer
  refine ⟨fun hleeway => ?_, fun crash => now_lt_of_verify_crash, fun hlong => ?_⟩
  · refine ⟨fun verified => verify_eq_ok_iff hleeway, fun refusal => verify_eq_refusal_iff hleeway,
      ?_, ?_, ?_⟩
    · intro claims hdecodes haccess hlink
      exact ⟨_, verify_of_unreached hleeway hdecodes haccess hlink, rfl⟩
    · intro claims id hdecodes haccess hnames hlink hlive other
      exact ⟨revoked id,
        verify_of_refused hleeway (.revoked hdecodes haccess hnames hlink hlive), rfl, rfl⟩
    · intro refusal hanswer
      exact event_eq_none_iff hleeway ((verify_eq_refusal_iff hleeway).mp hanswer)
  · refine ⟨fun claims hdecodes => verify_of_overlong hlong hdecodes, fun verified hanswer => ?_⟩
    exact absurd (leeway_le_of_accepted hanswer) (Nat.not_le.mpr hlong)

theorem cleared_sample (hsecret : settings.secret = "secret") (hfresh : now ≤ 100 + settings.leeway) :
    Cleared settings now 0 sampleToken {} sampleClaims "c" := by
  obtain ⟨payload, expiry, hsigned, hsaid, hcheck⟩ := Credential.read_eq_ok_iff.mp sampleToken_read
  have hexpiry : 100 ≤ expiry := (Credential.check_eq_ok_iff.mp hcheck).2
  have hdecodes : Decodes settings now sampleToken sampleClaims :=
    ⟨payload, expiry, hsecret ▸ hsigned, hsaid, by omega⟩
  have haccess : OfAccess sampleClaims := fun kind hkind => by cases hkind
  exact ⟨hdecodes, haccess, .given rfl (by decide), by decide, rfl⟩

-- The last second of the leeway, with a store that can be asked and with one that cannot.
theorem verification_exact_last_second :
    let settings : AuthSettings := { secret := "secret", leeway := 30 }
    let answer (backend : Backend) := (verify settings .ofClaims 130 0 sampleToken backend).1
    answer {} = .ok (.ok ⟨⟨"a", true⟩, "c"⟩) ∧
      ∃ refusal, answer { link := .failing } = .ok (.error refusal) ∧
        refusal.failure.code = "EXT_001" := by
  intro settings answer
  have hcleared : Cleared settings 130 0 sampleToken {} sampleClaims "c" :=
    cleared_sample rfl (by decide)
  obtain ⟨hgood, -⟩ := (verification_exact settings .ofClaims 130 0 sampleToken {}).1 (by decide)
  obtain ⟨-, -, hunreached, -⟩ :=
    (verification_exact settings .ofClaims 130 0 sampleToken { link := .failing }).1 (by decide)
  exact ⟨(hgood _).mpr ⟨sampleClaims, hcleared, rfl, rfl⟩,
    hunreached sampleClaims hcleared.decodes hcleared.access rfl⟩

-- Nothing is wrong with the token, the store or the caller, but the leeway reaches back beyond
-- the beginning of time.
theorem good_broken_off :
    let settings : AuthSettings := { secret := "secret", leeway := 9223372036854775808 }
    Good settings .ofClaims 1700000000 0 sampleToken {} ⟨⟨"a", true⟩, "c"⟩ ∧
      (verify settings .ofClaims 1700000000 0 sampleToken {}).1 = .error .leewayOverflow := by
  intro settings
  have hcleared : Cleared settings 1700000000 0 sampleToken {} sampleClaims "c" :=
    cleared_sample rfl (by decide)
  exact ⟨⟨sampleClaims, hcleared, rfl, rfl⟩, verify_of_overlong (by decide) hcleared.decodes⟩

end RequestGuard.Verifier
