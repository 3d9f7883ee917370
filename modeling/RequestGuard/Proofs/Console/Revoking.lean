import RequestGuard.Console.Action
import RequestGuard.Proofs.Token.Revocation

namespace RequestGuard

open Limiter (nowAt)
open Credential (revocationKey idOf)
open Verifier (sampleToken sampleClaims sampleToken_read)

-- Nobody takes a revocation back: nothing is deleted under the key, and what is written there
-- again lasts until the expiry.
def Activity.Upholds (key : String) (start expiry clock : Nat) : Activity → Prop
  | .storing (.set other _ ttl) => other = key → expiry * 1000 ≤ start + (clock + max ttl 1 * 1000)
  | activity => activity.Spares key

namespace Activity

variable {id : String} {start expiry moment : Nat}

theorem Upholds.spares_or_set {activity : Activity} {key : String} {clock : Nat}
    (h : activity.Upholds key start expiry clock) :
    activity.Spares key ∨ ∃ value ttl, activity = .storing (.set key value ttl) ∧
      expiry * 1000 ≤ start + (clock + max ttl 1 * 1000) := by
  cases activity with
  | limiting settings now identity call => exact .inl trivial
  | storing operation =>
      cases operation with
      | set other value ttl =>
          by_cases hkey : other = key
          · subst hkey
            exact .inr ⟨value, ttl, rfl, h rfl⟩
          · exact .inl hkey
      | increment other ttl => exact .inl h
      | delete other => exact .inl h
      | get other => exact .inl trivial
      | contains other => exact .inl trivial
      | purge => exact .inl trivial

-- A set that lasts long enough leaves something under the key, even one that breaks off.
theorem live_set_upheld {key : String} {clock ttl : Nat} (value : String) {store : Store}
    (hlive : (store.live moment key).isSome) (hle : clock ≤ moment)
    (hlasts : moment < clock + max ttl 1 * 1000) :
    ((store.set clock key value ttl).2.live moment key).isSome := by
  by_cases hroom : clock + max ttl 1 * 1000 < Store.endOfTime
  · have hset := (Store.set_written store clock key ttl value hroom).1
    rw [Store.live_set_self hset hle, if_pos hlasts]
    rfl
  · have hnext : (store.set clock key value ttl).2 = store.sweep clock := by
      simp [Store.set, Store.deadlineAfter, hroom]
    rwa [hnext, Store.live_sweep store hle]

theorem act_upheld {activity : Activity} {clock : Nat}
    (hupholds : activity.Upholds (revocationKey id) start expiry clock) (hle : clock ≤ moment)
    (hfresh : start + moment < expiry * 1000) {store : Store}
    (hlive : (store.live moment (revocationKey id)).isSome) :
    ∃ next, activity.act clock ⟨.working, store⟩ = ⟨.working, next⟩ ∧
      (next.live moment (revocationKey id)).isSome := by
  rcases hupholds.spares_or_set with hspares | ⟨value, ttl, rfl, hlasts⟩
  · obtain ⟨next, hact, hnext⟩ := act_live hspares hle store
    exact ⟨next, hact, hnext ▸ hlive⟩
  · exact ⟨_, rfl, live_set_upheld value hlive hle (by omega)⟩

theorem run_upheld {activities : List (Nat × Activity)}
    (hupholds : ∀ timed ∈ activities, timed.2.Upholds (revocationKey id) start expiry timed.1)
    (hbefore : ∀ timed ∈ activities, timed.1 ≤ moment) (hfresh : start + moment < expiry * 1000)
    {store : Store} (hlive : (store.live moment (revocationKey id)).isSome) :
    ∃ last, run activities ⟨.working, store⟩ = ⟨.working, last⟩ ∧
      (last.live moment (revocationKey id)).isSome :=
  run_keeps (P := fun next => (next.live moment (revocationKey id)).isSome)
    (fun timed htimed _ hnext =>
      act_upheld (hupholds timed htimed) (hbefore timed htimed) hfresh hnext) hlive

end Activity

namespace Console

variable {settings : Settings} {setting : Setting} {token : String} {claims : Claims}

theorem target_of_read {auth : AuthSettings} {check : Credential.Expiry}
    (h : Credential.read auth.secret check token = .ok claims) (now : Nat) :
    target auth now token = .ok ⟨idOf token claims, some (claims.expiry - now)⟩ := by
  obtain ⟨⟨payload, hpayload⟩, -⟩ := Credential.read_ok h
  rw [target, if_pos (Credential.isToken_of_verified hpayload), Credential.read_ignored h]

theorem revoke_expired {check : Credential.Expiry}
    (hread : Credential.read settings.auth.secret check token = .ok claims)
    (hexpired : claims.expiry ≤ setting.now) (isSure : Bool) (backend : Backend) :
    revoke settings setting token none isSure backend =
      (.ok { lines := revokeTitle ++ ["ℹ️  Token already expired; nothing to revoke"] },
        backend) := by
  simp only [revoke, target_of_read hread, Nat.sub_eq_zero_of_le hexpired, revocationLifetime]

theorem revoke_confirmed {check : Credential.Expiry} {isSure : Bool}
    (hread : Credential.read settings.auth.secret check token = .ok claims)
    (hleft : setting.now < claims.expiry) (hsure : (isSure || setting.agrees) = true)
    (store : Store) :
    let id := idOf token claims
    let seconds := claims.expiry - setting.now
    let written := store.set setting.storeNow (revocationKey id) "1" seconds
    revoke settings setting token none isSure ⟨.working, store⟩ =
      onReply (written.1, ⟨.working, written.2⟩) (revokeDetails id seconds)
        "Failed to revoke credential"
        fun _ => { lines := revokeDetails id seconds ++ ["✅ Credential revoked"] } := by
  have hlifetime :
      revocationLifetime none (some (claims.expiry - setting.now)) =
        some (claims.expiry - setting.now) := by
    obtain ⟨left, hsucc⟩ := Nat.exists_eq_add_one.mpr (Nat.sub_pos_of_lt hleft)
    rw [hsucc]
    rfl
  simp only [revoke, target_of_read hread, hlifetime, hsure, if_true, Backend.set_working]

-- A confirmed revocation of a token that succeeds has written the entry for as long as the token
-- lasts, or found nothing left of the token.
theorem revoke_succeeded {check : Credential.Expiry} {isSure : Bool} {store : Store}
    {outcome : Outcome} {after : Backend}
    (hread : Credential.read settings.auth.secret check token = .ok claims)
    (hsure : (isSure || setting.agrees) = true)
    (h : revoke settings setting token none isSure ⟨.working, store⟩ = (.ok outcome, after))
    (hdone : outcome.failure = none) :
    claims.expiry ≤ setting.now ∨
      (store.set setting.storeNow (revocationKey (idOf token claims)) "1"
        (claims.expiry - setting.now)).1 = .done () ∧
      after = ⟨.working, (store.set setting.storeNow (revocationKey (idOf token claims)) "1"
        (claims.expiry - setting.now)).2⟩ := by
  refine (Nat.lt_or_ge setting.now claims.expiry).symm.imp_right fun hleft => ?_
  rw [revoke_confirmed hread hleft hsure] at h
  cases hset : store.set setting.storeNow (revocationKey (idOf token claims)) "1"
      (claims.expiry - setting.now) with
  | mk reply next =>
      rw [hset] at h
      cases reply with
      | done _ =>
          cases h
          exact ⟨rfl, rfl⟩
      | failed error =>
          cases h
          contradiction
      | broken crash => cases h

-- Once it has been revoked from the console, a token is refused until its expiry, whatever goes
-- on in the store meanwhile short of taking the revocation back. From the expiry on only the
-- leeway of the verifier can let it in.
theorem revoked_until_expiry (settings : Settings) (setting : Setting) (start : Nat)
    (resolver : Resolver) (token : String) (isSure : Bool) (store : Store) (outcome : Outcome)
    (after : Backend) (moment : Nat) (activities : List (Nat × Activity))
    (hclock : setting.now = nowAt start setting.storeNow)
    (hsure : (isSure || setting.agrees) = true)
    (hrevoke : revoke settings setting token none isSure ⟨.working, store⟩ = (.ok outcome, after))
    (hdone : outcome.failure = none) (hle : setting.storeNow ≤ moment)
    (hbefore : ∀ timed ∈ activities, timed.1 ≤ moment)
    (hupholds : ∀ claims, Credential.read settings.auth.secret .ignored token = .ok claims →
      ∀ timed ∈ activities,
        timed.2.Upholds (revocationKey (idOf token claims)) start claims.expiry timed.1) :
    let now := nowAt start moment
    let answer := (Verifier.verify settings.auth resolver now moment token
      (Activity.run activities after)).1
    (∀ claims, Credential.read settings.auth.secret (.checked now settings.auth.leeway) token =
        .ok claims → Verifier.checkKind claims = .ok () → now < claims.expiry →
      Verifier.IsRevoked (idOf token claims) answer) ∧
    ∀ verified, answer = .ok (.ok verified) →
      ∃ claims, Credential.read settings.auth.secret .ignored token = .ok claims ∧
        claims.expiry ≤ now := by
  intro now answer
  have hrefused (claims : Claims)
      (hread : Credential.read settings.auth.secret (.checked now settings.auth.leeway) token =
        .ok claims) (hkind : Verifier.checkKind claims = .ok ()) (hearly : now < claims.expiry) :
      Verifier.IsRevoked (idOf token claims) answer := by
    have hfresh : start + moment < claims.expiry * 1000 := by
      simp only [now, nowAt] at hearly
      omega
    rcases revoke_succeeded hread hsure hrevoke hdone with hexpired | ⟨hset, rfl⟩
    · have hlater : setting.now ≤ now := by
        rw [hclock]
        exact Nat.div_le_div_right (Nat.add_le_add_left hle start)
      omega
    · have hlasts : moment < setting.storeNow + max (claims.expiry - setting.now) 1 * 1000 := by
        simp only [nowAt] at hclock
        omega
      have hlive : ((store.set setting.storeNow (revocationKey (idOf token claims)) "1"
          (claims.expiry - setting.now)).2.live moment
            (revocationKey (idOf token claims))).isSome := by
        rw [Store.live_set_self hset hle, if_pos hlasts]
        rfl
      obtain ⟨last, hrun, hlast⟩ := Activity.run_upheld
        (hupholds claims (Credential.read_ignored hread)) hbefore hfresh hlive
      refine ⟨Verifier.revoked (idOf token claims), ?_, rfl, rfl⟩
      simp only [answer, hrun]
      rw [Verifier.verify_eq hread hkind, if_pos hlast]
  refine ⟨hrefused, fun verified haccepted => ?_⟩
  obtain ⟨claims, hread, hkind⟩ := Verifier.read_of_accepted haccepted
  refine ⟨claims, Credential.read_ignored hread, Nat.not_lt.mp fun hearly => ?_⟩
  obtain ⟨refusal, hrefusal, -⟩ := hrefused claims hread hkind hearly
  rw [haccepted] at hrefusal
  cases hrefusal

def lenientSettings : Settings :=
  { auth := { secret := "secret", leeway := 30 } }

theorem idOf_sample : idOf sampleToken sampleClaims = "c" := rfl

-- A minute before the expiry the revocation is written for a minute.
theorem revoke_sample :
    revoke lenientSettings ⟨40, 40000, "", false⟩ sampleToken none true {} =
      (.ok ⟨revokeDetails "c" 60 ++ ["✅ Credential revoked"], none, none⟩,
        ⟨.working, (Store.set {} 40000 (revocationKey "c") "1" 60).2⟩) := by
  have hread : Credential.read lenientSettings.auth.secret .ignored sampleToken =
      .ok sampleClaims := Credential.read_ignored sampleToken_read
  exact revoke_confirmed hread (by decide) rfl {}

-- When the minute is over, the token is accepted. And at its expiry the console says that nothing
-- is left to revoke, but the token is accepted.
theorem accepted_after_revoking :
    (∃ outcome after, revoke lenientSettings ⟨40, 40000, "", false⟩ sampleToken none true {} =
        (.ok outcome, after) ∧ outcome.failure = none ∧
      (Verifier.verify lenientSettings.auth .ofClaims 100 100000 sampleToken after).1 =
        .ok (.ok ⟨⟨"a", true⟩, "c"⟩)) ∧
    ∃ after, revoke lenientSettings ⟨100, 100000, "", false⟩ sampleToken none true {} =
        (.ok ⟨revokeTitle ++ ["ℹ️  Token already expired; nothing to revoke"], none, none⟩, after) ∧
      (Verifier.verify lenientSettings.auth .ofClaims 100 100000 sampleToken after).1 =
        .ok (.ok ⟨⟨"a", true⟩, "c"⟩) := by
  have hread : Credential.read lenientSettings.auth.secret
      (.checked 100 lenientSettings.auth.leeway) sampleToken = .ok sampleClaims :=
    Credential.read_earlier sampleToken_read (by decide) (by decide)
  have hverify (store : Store) (hlive : store.live 100000 (revocationKey "c") = none) :
      (Verifier.verify lenientSettings.auth .ofClaims 100 100000 sampleToken ⟨.working, store⟩).1 =
        .ok (.ok ⟨⟨"a", true⟩, "c"⟩) := by
    rw [Verifier.verify_eq hread rfl, idOf_sample, hlive]
    rfl
  refine ⟨⟨_, _, revoke_sample, rfl, hverify _ ?_⟩, {}, ?_, hverify {} rfl⟩
  · rw [Store.live_set_self rfl (by decide)]
    rfl
  · exact revoke_expired hread (by decide) true {}

-- The last millisecond before the expiry, after the token has been revoked once more.
theorem revoked_until_expiry_twice :
    Verifier.IsRevoked "c" (Verifier.verify lenientSettings.auth .ofClaims 99 99999 sampleToken
      (Activity.run
        [(50000, .limiting {} 50 "a" .check),
          (70000, .storing (.set (revocationKey "c") "1" 30))]
        ⟨.working, (Store.set {} 40000 (revocationKey "c") "1" 60).2⟩)).1 := by
  have hread : Credential.read lenientSettings.auth.secret (.checked 99 lenientSettings.auth.leeway)
      sampleToken = .ok sampleClaims :=
    Credential.read_earlier sampleToken_read (by decide) (by decide)
  refine (revoked_until_expiry lenientSettings ⟨40, 40000, "", false⟩ 0 .ofClaims sampleToken true
    {} _ _ 99999 _ rfl rfl revoke_sample rfl (by decide) (by simp) ?_).1 sampleClaims hread rfl
    (by decide)
  intro claims hclaims
  rw [Credential.read_ignored hread] at hclaims
  cases hclaims
  simp [Activity.Upholds, Activity.Spares, sampleClaims]

end Console

end RequestGuard
