import RequestGuard.Proofs.Limiter.Framing
import RequestGuard.Proofs.Store.Expiring
import RequestGuard.Proofs.Token.Reading
import RequestGuard.Verifier

namespace RequestGuard

-- What goes on in a store between the verifications: calls of a limiter at any time that its
-- clock shows, and operations on the store itself.
inductive Activity where
  | limiting (settings : LimitSettings) (now : Nat) (identity : String) (call : Limiter.Call)
  | storing (operation : Operation)

namespace Activity

def act (clock : Nat) (backend : Backend) : Activity → Backend
  | limiting settings now identity call =>
    (Limiter.performAt settings now ⟨clock, identity, call⟩ backend).2
  | storing operation => { backend with store := (backend.store.perform clock operation).2 }

-- What a run of activities leaves, each at the time that the clock of the store shows.
def run (activities : List (Nat × Activity)) (backend : Backend) : Backend :=
  activities.foldl (fun backend (clock, activity) => activity.act clock backend) backend

-- Anything may be read, and the limiter may be called at will, but nothing is written or deleted
-- under the key from outside the limiter.
def Spares (key : String) : Activity → Prop
  | storing (.increment other _) => other ≠ key
  | storing (.set other _ _) => other ≠ key
  | storing (.delete other) => other ≠ key
  | _ => True

end Activity

-- The counters of the limiter and the list of the revoked credentials have no key in common.
theorem revocationKey_ne_counterKey (id identity : String) (window : WindowName) (bucket : Nat) :
    Credential.revocationKey id ≠ counterKey identity window bucket := by
  intro h
  have hsecond := congrArg (fun key => key.toList[1]?) h
  simp [Credential.revocationKey, counterKey_eq] at hsecond

namespace Activity

variable {id : String} {moment : Nat}

theorem perform_live {operation : Operation} {key : String} {clock : Nat}
    (hspares : Spares key (.storing operation)) (hle : clock ≤ moment) (store : Store) :
    (store.perform clock operation).2.live moment key = store.live moment key := by
  cases operation with
  | increment other ttl => exact Store.live_increment_of_ne (Ne.symm hspares) ttl hle
  | get other => exact Store.live_get store clock other hle key
  | set other value ttl => exact Store.live_set_of_ne (Ne.symm hspares) value ttl hle
  | contains other => exact Store.live_contains store clock other hle key
  | delete other => exact Store.live_delete_of_ne (Ne.symm hspares)
  | purge => exact Store.live_purge store hle key

-- What each activity keeps holds after a run of them, by induction on the run.
theorem run_keeps {P : Store → Prop} {activities : List (Nat × Activity)}
    (hact : ∀ timed ∈ activities, ∀ store, P store →
      ∃ next, timed.2.act timed.1 ⟨.working, store⟩ = ⟨.working, next⟩ ∧ P next)
    {store : Store} (h : P store) :
    ∃ last, run activities ⟨.working, store⟩ = ⟨.working, last⟩ ∧ P last := by
  induction activities generalizing store with
  | nil => exact ⟨store, rfl, h⟩
  | cons timed rest ih =>
      obtain ⟨hfirst, hrest⟩ := List.forall_mem_cons.mp hact
      obtain ⟨next, hnext, hkept⟩ := hfirst store h
      obtain ⟨last, hlast, hheld⟩ := ih hrest hkept
      refine ⟨last, ?_, hheld⟩
      rw [← hlast, ← hnext]
      rfl

theorem act_live {activity : Activity} {clock : Nat}
    (hspares : activity.Spares (Credential.revocationKey id)) (hle : clock ≤ moment)
    (store : Store) :
    ∃ next, activity.act clock ⟨.working, store⟩ = ⟨.working, next⟩ ∧
      next.live moment (Credential.revocationKey id) =
        store.live moment (Credential.revocationKey id) := by
  cases activity with
  | limiting settings now identity call =>
      obtain ⟨next, hnext, hlive⟩ :=
        Limiter.performAt_live settings now ⟨clock, identity, call⟩ store
      exact ⟨next, hnext, hlive _ (fun _ _ => revocationKey_ne_counterKey id _ _ _) moment hle⟩
  | storing operation => exact ⟨_, rfl, perform_live hspares hle store⟩

theorem run_live {activities : List (Nat × Activity)}
    (hspares : ∀ timed ∈ activities, timed.2.Spares (Credential.revocationKey id))
    (hbefore : ∀ timed ∈ activities, timed.1 ≤ moment) (store : Store) :
    ∃ last, run activities ⟨.working, store⟩ = ⟨.working, last⟩ ∧
      last.live moment (Credential.revocationKey id) =
        store.live moment (Credential.revocationKey id) := by
  refine run_keeps (fun timed htimed next hnext => ?_) rfl
  obtain ⟨later, hact, hlive⟩ := act_live (hspares timed htimed) (hbefore timed htimed) next
  exact ⟨later, hact, hlive.trans hnext⟩

end Activity

-- A lookup of a subject that fails says that a store or another service has failed.
def Resolver.FailsBehind (resolver : Resolver) : Prop :=
  ∀ claims failure, resolver claims = .error failure →
    failure.code = "DB_001" ∨ failure.code = "EXT_001"

theorem Resolver.ofClaims_failsBehind : Resolver.ofClaims.FailsBehind := by
  intro claims failure h
  cases h

namespace Backend

variable {backend : Backend} (now : Nat) (key : String)

theorem contains_failing (h : backend.link = .failing) :
    backend.contains now key = (.failed refusal, backend) := by
  simp [contains, through, h]

theorem contains_open (h : backend.link ≠ .failing) :
    backend.contains now key = (.done (backend.store.live now key).isSome,
      { backend with store := backend.store.touch now key }) := by
  obtain ⟨link, store⟩ := backend
  rw [← Store.contains_found]
  cases link with
  | failing => contradiction
  | _ => rfl

theorem delete_open (h : backend.link ≠ .failing) :
    backend.delete key = (.done (backend.store.find? key).isSome,
      { backend with store := backend.store.erase key }) := by
  obtain ⟨link, store⟩ := backend
  cases link with
  | failing => contradiction
  | _ => rfl

end Backend

namespace Verifier

variable {settings : AuthSettings} {resolver : Resolver} {now moment : Nat} {token : String}
  {claims : Claims}

-- The answer that a credential has been revoked.
def IsRevoked (id : String) (answer : Except Crash (Except Refusal Verified)) : Prop :=
  ∃ refusal, answer = .ok (.error refusal) ∧ refusal.failure.code = "AUTH_003" ∧
    refusal.event = some (.revokedCredential id)

def SaysRevoked (answer : Except Crash (Except Refusal Verified)) : Prop :=
  ∃ refusal, answer = .ok (.error refusal) ∧ refusal.failure.code = "AUTH_003"

-- A token that can be read and is of a good kind is refused if its id is on the list, and looked
-- up otherwise.
theorem verify_of_open {backend : Backend}
    (hread : Credential.read settings.secret (.checked now settings.leeway) token = .ok claims)
    (hkind : checkKind claims = .ok ()) (hlink : backend.link ≠ .failing) :
    (verify settings resolver now moment token backend).1 =
      .ok (if (backend.store.live moment
            (Credential.revocationKey (Credential.idOf token claims))).isSome
        then .error (revoked (Credential.idOf token claims))
        else resolve resolver claims (Credential.idOf token claims)) := by
  simp only [verify, hread, hkind, Backend.contains_open moment _ hlink]
  cases (backend.store.live moment
    (Credential.revocationKey (Credential.idOf token claims))).isSome <;> rfl

theorem verify_eq (hread : Credential.read settings.secret (.checked now settings.leeway) token =
      .ok claims) (hkind : checkKind claims = .ok ()) (store : Store) :
    (verify settings resolver now moment token ⟨.working, store⟩).1 =
      .ok (if (store.live moment (Credential.revocationKey (Credential.idOf token claims))).isSome
        then .error (revoked (Credential.idOf token claims))
        else resolve resolver claims (Credential.idOf token claims)) :=
  verify_of_open hread hkind (by simp)

-- Who is let in has a token that could be read and is of a good kind.
theorem read_of_accepted {backend : Backend} {verified : Verified}
    (h : (verify settings resolver now moment token backend).1 = .ok (.ok verified)) :
    ∃ claims, Credential.read settings.secret (.checked now settings.leeway) token = .ok claims ∧
      checkKind claims = .ok () := by
  simp only [verify] at h
  split at h
  · cases h
  · cases h
  · next claims hread =>
      split at h
      · cases h
      · next hkind => exact ⟨claims, hread, hkind⟩

theorem resolve_code (hresolver : resolver.FailsBehind) {id : String} {refusal : Refusal}
    (h : resolve resolver claims id = .error refusal) : refusal.failure.code ≠ "AUTH_003" := by
  simp only [resolve] at h
  split at h
  · next failure hfailure =>
      cases h
      rcases hresolver claims failure hfailure with hcode | hcode <;> simp [hcode]
  · cases h
    simp [invalid, Failure.authentication]
  · split at h
    · cases h
    · cases h
      simp [Failure.authorization]

theorem not_saysRevoked_resolve (hresolver : resolver.FailsBehind) (id : String) :
    ¬SaysRevoked (.ok (resolve resolver claims id)) := by
  rintro ⟨refusal, hanswer, hcode⟩
  exact resolve_code hresolver (Except.ok.inj hanswer) hcode

-- A revocation lasts as long as it was made for, whatever goes on under other keys meanwhile,
-- and without one no credential is said to be revoked.
theorem revocation_durable (settings : AuthSettings) (resolver : Resolver) (token : String)
    (claims : Claims) (now t moment : Nat) (store : Store) (activities : List (Nat × Activity))
    (hread : Credential.read settings.secret (.checked now settings.leeway) token = .ok claims)
    (hkind : checkKind claims = .ok ()) (hresolver : resolver.FailsBehind) (hle : t ≤ moment)
    (hbefore : ∀ timed ∈ activities, timed.1 ≤ moment)
    (hspares : ∀ timed ∈ activities,
      timed.2.Spares (Credential.revocationKey (Credential.idOf token claims))) :
    let id := Credential.idOf token claims
    let answer (origin : Store) := (verify settings resolver now moment token
      (Activity.run activities ⟨.working, origin⟩)).1
    (∀ value ttl, (store.set t (Credential.revocationKey id) value ttl).1 = .done () →
      let revoking := (store.set t (Credential.revocationKey id) value ttl).2
      (moment < t + max ttl 1 * 1000 → IsRevoked id (answer revoking)) ∧
      (t + max ttl 1 * 1000 ≤ moment → ¬SaysRevoked (answer revoking))) ∧
    (store.live t (Credential.revocationKey id) = none → ¬SaysRevoked (answer store)) := by
  intro id answer
  have hanswer (origin : Store) : answer origin =
      .ok (if (origin.live moment (Credential.revocationKey id)).isSome then .error (revoked id)
        else resolve resolver claims id) := by
    obtain ⟨last, hrun, hlive⟩ := Activity.run_live hspares hbefore origin
    simp only [answer, hrun]
    rw [verify_eq hread hkind, hlive]
  refine ⟨fun value ttl hset => ⟨fun hfresh => ?_, fun hpast => ?_⟩, fun hnone => ?_⟩
  · rw [hanswer, Store.live_set_self hset hle, if_pos hfresh]
    exact ⟨_, rfl, rfl, rfl⟩
  · rw [hanswer, Store.live_set_self hset hle, if_neg (Nat.not_lt.mpr hpast)]
    exact not_saysRevoked_resolve hresolver id
  · rw [hanswer, Store.live_later _ hle, hnone]
    exact not_saysRevoked_resolve hresolver id

def sampleClaims : Claims :=
  { subject := "a", expiry := 100, id := some "c" }

def sampleToken : String :=
  Credential.mint "secret" sampleClaims

theorem sampleToken_read :
    Credential.read "secret" (.checked 100 0) sampleToken = .ok sampleClaims :=
  Credential.read_of_toOption (by decide +kernel)

-- The last millisecond of a revocation and the first one after it.
theorem revocation_durable_to_the_end :
    let activities : List (Nat × Activity) :=
      [(1, .limiting {} 50 "a" .check), (2, .storing (.contains "revoked:c")),
        (59999, .storing (.increment "revoked:d" 5))]
    let answer (moment : Nat) := (verify { secret := "secret" } .ofClaims 50 moment sampleToken
      (Activity.run activities ⟨.working, (Store.set {} 0 "revoked:c" "1" 60).2⟩)).1
    IsRevoked "c" (answer 59999) ∧ ¬SaysRevoked (answer 60000) := by
  intro activities answer
  have hread : Credential.read "secret" (.checked 50 0) sampleToken = .ok sampleClaims :=
    Credential.read_earlier sampleToken_read (by decide) (by decide)
  have hspares : ∀ timed ∈ activities, timed.2.Spares "revoked:c" := by
    simp [activities, Activity.Spares]
  have hdurable (moment : Nat) (hmoment : 59999 ≤ moment) :=
    (revocation_durable { secret := "secret" } .ofClaims sampleToken sampleClaims 50 0 moment {}
      activities hread rfl Resolver.ofClaims_failsBehind (Nat.zero_le _)
      (by simp [activities]; omega) hspares).1 "1" 60 rfl
  exact ⟨(hdurable 59999 (by decide)).1 (by decide), (hdurable 60000 (by decide)).2 (by decide)⟩

end Verifier

end RequestGuard
