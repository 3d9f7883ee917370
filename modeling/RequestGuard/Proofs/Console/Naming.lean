import RequestGuard.Proofs.Console.Restoring
import RequestGuard.Proofs.Console.Revoking
import RequestGuard.Proofs.Token.Extent
import RequestGuard.Proofs.Token.Minting

namespace RequestGuard.Console

open Credential (idOf)
open Verifier (sampleToken sampleClaims sampleToken_read)

variable {settings : Settings} {auth : AuthSettings} {resolver : Resolver} {now storeNow : Nat}
  {token text id : String} {backend : Backend} {verified : Verified}

theorem isToken_eq_false_iff : isToken text = false ↔ text.toList.count '.' ≠ 2 := by
  simp [isToken]

theorem target_of_not_token (h : isToken text = false) (auth : AuthSettings) (now : Nat) :
    target auth now text = .ok ⟨text, none⟩ := by
  simp [target, h]

-- A text names itself unless it is taken for a token, for no token is its own id.
theorem target_self_iff (auth : AuthSettings) (now : Nat) (text : String) :
    (∃ named, target auth now text = .ok ⟨text, named⟩) ↔ isToken text = false := by
  refine ⟨?_, fun h => ⟨none, target_of_not_token h auth now⟩⟩
  rintro ⟨named, htarget⟩
  unfold target at htarget
  split at htarget
  · split at htarget
    · contradiction
    · next claims hread =>
        have hself : idOf text claims = text :=
          congrArg Target.id (Except.ok.inj htarget)
        exact absurd hself (Credential.idOf_ne_self hread)
  · next htext => exact Bool.eq_false_iff.mpr htext

-- Whoever is let in has a token whose id is the one that the console finds in it.
theorem read_of_verified
    (h : (Verifier.verify auth resolver now storeNow token backend).1 = .ok (.ok verified)) :
    ∃ claims, Credential.read auth.secret .ignored token = .ok claims ∧
      verified.credentialId = idOf token claims := by
  have hleeway := Verifier.leeway_le_of_accepted h
  obtain ⟨claims, hcleared, -, -⟩ := (Verifier.verify_eq_ok_iff hleeway).mp h
  exact ⟨claims, Credential.read_ignored ((Verifier.decodes_iff hleeway).mp hcleared.decodes),
    Verifier.names_iff.mp hcleared.names⟩

-- A credential without an id goes by its fingerprint.
theorem isToken_of_nameless {claims : Claims} (hnames : Verifier.Names token claims id)
    (hnone : claims.id.getD "" = "") : isToken id = false := by
  cases hnames with
  | given hgiven hne =>
      rw [hgiven] at hnone
      exact absurd hnone hne
  | fingerprint => exact isToken_hexText _

-- Two names for the same credential, the first of which is a token. Without a lifetime of its own
-- the revocation of a token lasts as long as the token.
structure Alike (settings : Settings) (token id : String) : Prop where
  restored : ∀ setting, restore settings setting token = restore settings setting id
  shown : ∀ setting, status settings setting token = status settings setting id
  revoked : ∀ setting seconds isSure, revoke settings setting token (some seconds) isSure =
    revoke settings setting id (some seconds) isSure
  revokedForRest : ∀ setting left isSure,
    target settings.auth setting.now token = .ok ⟨id, some (left + 1)⟩ →
      revoke settings setting token none isSure =
        revoke settings setting id (some (left + 1)) isSure

-- The commands ask for nothing but the id, the revocation for how long is left too.
theorem alike_of_denotes (htoken : Denotes settings.auth token id)
    (hid : Denotes settings.auth id id) : Alike settings token id where
  restored setting := by
    obtain ⟨_, htarget⟩ := htoken setting.now
    obtain ⟨_, hself⟩ := hid setting.now
    funext backend
    simp only [restore, htarget, hself]
  shown setting := by
    obtain ⟨_, htarget⟩ := htoken setting.now
    obtain ⟨_, hself⟩ := hid setting.now
    funext backend
    simp only [status, htarget, hself]
  revoked setting seconds isSure := by
    obtain ⟨_, htarget⟩ := htoken setting.now
    obtain ⟨_, hself⟩ := hid setting.now
    funext backend
    simp only [revoke, htarget, hself, revocationLifetime]
  revokedForRest setting left isSure htarget := by
    obtain ⟨_, hself⟩ := hid setting.now
    funext backend
    simp only [revoke, htarget, hself, revocationLifetime]

-- A token that is accepted names its credential at the console, and the id that is printed for it
-- names the same one unless it has two dots. Then the id is taken for a token, and names nothing
-- or something else. A fingerprint has none.
theorem id_names_iff (auth : AuthSettings) (resolver : Resolver) (now storeNow : Nat)
    (token : String) (backend : Backend) (verified : Verified) (settings : Settings)
    (haccepted :
      (Verifier.verify auth resolver now storeNow token backend).1 = .ok (.ok verified))
    (hsecret : settings.auth.secret = auth.secret) :
    let id := verified.credentialId
    (∀ later, ∃ left, target settings.auth later token = .ok ⟨id, some left⟩) ∧
      (∀ setting origin, origin.link ≠ .failing → ∃ outcome after,
        status settings setting token origin = (.ok outcome, after) ∧ outcome.failure = none ∧
          outcome.lines.head? = some ("  Credential: " ++ id)) ∧
      (∀ later, (∃ left, target settings.auth later id = .ok ⟨id, left⟩) ↔
        id.toList.count '.' ≠ 2) ∧
      (id.toList.count '.' ≠ 2 → Alike settings token id) ∧
      (∀ claims, Credential.read auth.secret .ignored token = .ok claims →
        claims.id.getD "" = "" → id.toList.count '.' ≠ 2) := by
  intro id
  obtain ⟨claims, hread, hid⟩ := read_of_verified haccepted
  have htoken (later : Nat) :
      target settings.auth later token = .ok ⟨id, some (claims.expiry - later)⟩ := by
    simp only [id, hid]
    exact target_of_read (hsecret ▸ hread) later
  have hdenotes : Denotes settings.auth token id := fun later => ⟨_, htoken later⟩
  have hself (later : Nat) :
      (∃ left, target settings.auth later id = .ok ⟨id, left⟩) ↔ id.toList.count '.' ≠ 2 :=
    (target_self_iff settings.auth later id).trans isToken_eq_false_iff
  refine ⟨fun later => ⟨_, htoken later⟩, fun setting origin hlink => ?_, hself,
    fun hplain => ?_, fun others hothers hnone => ?_⟩
  · exact ⟨_, _, status_eq hdenotes hlink setting, rfl, rfl⟩
  · exact alike_of_denotes hdenotes fun later => (hself later).mpr hplain
  · obtain rfl : claims = others := Except.ok.inj (hread.symm.trans hothers)
    exact isToken_eq_false_iff.mp (isToken_of_nameless (Verifier.names_iff.mpr hid) hnone)

-- A plain id is as good as its token.
theorem sample_named_by_id :
    (Verifier.verify lenientSettings.auth .ofClaims 50 0 sampleToken {}).1 =
        .ok (.ok ⟨⟨"a", true⟩, "c"⟩) ∧
      Alike lenientSettings sampleToken "c" := by
  have hread : Credential.read lenientSettings.auth.secret
      (.checked 50 lenientSettings.auth.leeway) sampleToken = .ok sampleClaims :=
    Credential.read_earlier sampleToken_read (by decide) (by decide)
  have haccepted : (Verifier.verify lenientSettings.auth .ofClaims 50 0 sampleToken {}).1 =
      .ok (.ok ⟨⟨"a", true⟩, "c"⟩) := by
    rw [Verifier.verify_eq hread rfl, idOf_sample]
    rfl
  obtain ⟨-, -, -, halike, -⟩ :=
    id_names_iff _ _ _ _ _ _ _ lenientSettings haccepted rfl
  exact ⟨haccepted, halike (by decide)⟩

def dottedClaims : Claims :=
  { subject := "a", expiry := 100, id := some "a.b.c" }

-- An id with two dots is printed for a token that is accepted, and nothing can be named by it.
theorem dotted_id_names_nothing :
    let auth : AuthSettings := { secret := "secret" }
    let token := Credential.mint "secret" dottedClaims
    (Verifier.verify auth .ofClaims 50 0 token {}).1 = .ok (.ok ⟨⟨"a", true⟩, "a.b.c"⟩) ∧
      ∀ now, ∃ reason, target auth now "a.b.c" = .error reason := by
  intro auth token
  have hrange : dottedClaims.InRange :=
    ⟨by decide, fun n hn => absurd hn (by simp [dottedClaims])⟩
  have hread : Credential.read auth.secret (.checked 50 0) token = .ok dottedClaims :=
    Credential.read_mint "secret" hrange rfl
  have hnothing : (Credential.read auth.secret .ignored "a.b.c").toOption = none := by
    decide +kernel
  refine ⟨?_, fun now => ?_⟩
  · rw [Verifier.verify_eq hread rfl]
    rfl
  · unfold target
    rw [if_pos (by decide)]
    cases hfault : Credential.read auth.secret .ignored "a.b.c" with
    | error fault => exact ⟨_, rfl⟩
    | ok claims =>
        rw [hfault] at hnothing
        contradiction

end RequestGuard.Console
