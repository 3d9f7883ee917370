import RequestGuard.Console.Action
import RequestGuard.Proofs.Store.Residue
import RequestGuard.Proofs.Token.Acceptance

namespace RequestGuard

open Credential (revocationKey)

namespace Store

variable {store : Store} {now : Nat} {key : String}

-- What has expired and is held all the same, because nothing has looked at it since.
def Lingers (store : Store) (now : Nat) (key : String) : Prop :=
  ∃ entry, store.find? key = some entry ∧ entry.isExpired now = true

-- What is held under a key is live or lingers, and never both.

theorem isSome_find?_iff (store : Store) (now : Nat) (key : String) :
    (store.find? key).isSome = true ↔
      (store.live now key).isSome = true ∨ store.Lingers now key := by
  cases hfind : store.find? key with
  | none => simp [Lingers, live, hfind]
  | some entry =>
      cases hexpired : entry.isExpired now with
      | false => simp [live, hfind, Option.filter_some, hexpired]
      | true => simp [Lingers, hfind, hexpired]

theorem not_lingers_of_live (h : (store.live now key).isSome = true) :
    ¬store.Lingers now key := by
  rintro ⟨entry, hfind, hexpired⟩
  simp [live, hfind, Option.filter_some, hexpired] at h

-- So a deletion and a lookup tell the same where nothing lingers, and nowhere else.
theorem isSome_find?_iff_live :
    ((store.find? key).isSome = true ↔ (store.live now key).isSome = true) ↔
      ¬store.Lingers now key := by
  rw [isSome_find?_iff store now key]
  constructor
  · intro hsame hlingers
    exact not_lingers_of_live (hsame.mp (.inr hlingers)) hlingers
  · intro hnone
    exact or_iff_left hnone

end Store

namespace Console

variable {settings : Settings} {auth : AuthSettings} {credential text id line : String}
  {backend : Backend} {named : Target}

-- A command succeeds, and this is the last line that it prints.
def Tells (line : String) (answer : Except Crash Outcome × Backend) : Prop :=
  ∃ outcome, answer.1 = .ok outcome ∧ outcome.failure = none ∧
    outcome.lines.getLast? = some line

-- The id that a text stands for at any time.
def Denotes (auth : AuthSettings) (text id : String) : Prop :=
  ∀ now, ∃ remaining, target auth now text = .ok ⟨id, remaining⟩

-- Time decides how long a token lasts, and not whom it names.
theorem denotes_of_target {now : Nat} (h : target auth now text = .ok named) :
    Denotes auth text named.id := by
  intro later
  unfold target at h ⊢
  split
  · next htoken =>
      rw [if_pos htoken] at h
      split at h
      · cases h
      · next claims hread =>
          cases h
          exact ⟨_, rfl⟩
  · next hid =>
      rw [if_neg hid] at h
      cases h
      exact ⟨_, rfl⟩

-- What the two commands print and leave, once they know whom they are about

theorem status_eq (h : Denotes settings.auth credential id) (hlink : backend.link ≠ .failing)
    (setting : Setting) :
    let isRevoked := (backend.store.live setting.storeNow (revocationKey id)).isSome
    status settings setting credential backend =
      (.ok { lines := ["  Credential: " ++ id,
          "  Status:     " ++ (if isRevoked then "REVOKED" else "ACTIVE")] },
        { backend with store := backend.store.touch setting.storeNow (revocationKey id) }) := by
  obtain ⟨_, htarget⟩ := h setting.now
  simp only [status, htarget, Backend.contains_open _ _ hlink, onReply]

theorem restore_eq (h : Denotes settings.auth credential id) (hlink : backend.link ≠ .failing)
    (setting : Setting) :
    let existed := (backend.store.find? (revocationKey id)).isSome
    restore settings setting credential backend =
      (.ok { lines :=
          [if existed then "✅ Revocation lifted" else "ℹ️  Credential was not revoked"] },
        { backend with store := backend.store.erase (revocationKey id) }) := by
  obtain ⟨_, htarget⟩ := h setting.now
  simp only [restore, htarget, Backend.delete_open _ hlink, onReply]

theorem tells_revoked_iff (h : Denotes settings.auth credential id)
    (hlink : backend.link ≠ .failing) (setting : Setting) :
    Tells "  Status:     REVOKED" (status settings setting credential backend) ↔
      (backend.store.live setting.storeNow (revocationKey id)).isSome = true := by
  rw [status_eq h hlink]
  cases (backend.store.live setting.storeNow (revocationKey id)).isSome with
  | true => simp [Tells]
  | false => simp [Tells]

theorem tells_active_iff (h : Denotes settings.auth credential id)
    (hlink : backend.link ≠ .failing) (setting : Setting) :
    Tells "  Status:     ACTIVE" (status settings setting credential backend) ↔
      backend.store.live setting.storeNow (revocationKey id) = none := by
  rw [status_eq h hlink]
  cases backend.store.live setting.storeNow (revocationKey id) with
  | none => simp [Tells]
  | some entry => simp [Tells]

theorem tells_lifted_iff (h : Denotes settings.auth credential id)
    (hlink : backend.link ≠ .failing) (setting : Setting) :
    Tells "✅ Revocation lifted" (restore settings setting credential backend) ↔
      (backend.store.find? (revocationKey id)).isSome = true := by
  rw [restore_eq h hlink]
  cases (backend.store.find? (revocationKey id)).isSome with
  | true => simp [Tells]
  | false => simp [Tells]

theorem active_after_restore (h : Denotes settings.auth credential id)
    (hlink : backend.link ≠ .failing) (setting later : Setting) :
    Tells "  Status:     ACTIVE"
      (status settings later credential (restore settings setting credential backend).2) := by
  have hlifted : (restore settings setting credential backend).2 =
      { backend with store := backend.store.erase (revocationKey id) } := by
    rw [restore_eq h hlink]
  have hopen : (restore settings setting credential backend).2.link ≠ .failing := by
    rw [hlifted]
    exact hlink
  rw [tells_active_iff h hopen, hlifted, Store.live_erase, if_pos rfl]

-- A credential is active once its revocation has been lifted, whether there was one or not. What
-- the lifting tells agrees with the status that was asked for before, because asking lets an
-- expired revocation go. Without having asked, it takes one that lingers for a revocation, and so
-- agrees with the status exactly where none does.
theorem restore_agrees_iff (settings : Settings) (asking lifting later : Setting)
    (credential : String) (named : Target) (backend : Backend)
    (htarget : target settings.auth asking.now credential = .ok named)
    (hlink : backend.link ≠ .failing) :
    let key := revocationKey named.id
    let asked := status settings asking credential backend
    let lifted := restore settings lifting credential
    let isRevoked := Tells "  Status:     REVOKED" asked
    (Tells "✅ Revocation lifted" (lifted asked.2) ↔ isRevoked) ∧
      Tells "  Status:     ACTIVE" (status settings later credential (lifted asked.2).2) ∧
      Tells "  Status:     ACTIVE" (status settings later credential (lifted backend).2) ∧
      (Tells "✅ Revocation lifted" (lifted backend) ↔
        isRevoked ∨ backend.store.Lingers asking.storeNow key) ∧
      ((Tells "✅ Revocation lifted" (lifted backend) ↔ isRevoked) ↔
        ¬backend.store.Lingers asking.storeNow key) ∧
      (((backend.store.delete key).1 = (backend.store.contains asking.storeNow key).1) ↔
        ¬backend.store.Lingers asking.storeNow key) := by
  intro key asked lifted isRevoked
  have hdenotes : Denotes settings.auth credential named.id := denotes_of_target htarget
  have hasked : asked.2 = { backend with store := backend.store.touch asking.storeNow key } := by
    simp only [asked, status_eq hdenotes hlink, key]
  have hopen : asked.2.link ≠ .failing := by
    rw [hasked]
    exact hlink
  have hrevoked : isRevoked ↔ (backend.store.live asking.storeNow key).isSome = true :=
    tells_revoked_iff hdenotes hlink asking
  have hlifted : Tells "✅ Revocation lifted" (lifted backend) ↔
      (backend.store.find? key).isSome = true :=
    tells_lifted_iff hdenotes hlink lifting
  refine ⟨?_, active_after_restore hdenotes hopen lifting later,
    active_after_restore hdenotes hlink lifting later, ?_, ?_, ?_⟩
  · rw [hrevoked, ← Store.find?_touch, tells_lifted_iff hdenotes hopen, hasked]
  · rw [hlifted, hrevoked]
    exact Store.isSome_find?_iff ..
  · rw [hlifted, hrevoked]
    exact Store.isSome_find?_iff_live
  · rw [Store.contains_found, Bool.eq_iff_iff]
    exact Store.isSome_find?_iff_live

-- One second after a revocation for one second, nothing is lifted if the status was asked for.
theorem restore_agrees_expired :
    let setting : Setting := ⟨1, 1000, "", false⟩
    let backend : Backend := ⟨.working, (Store.set {} 0 (revocationKey "c") "1" 1).2⟩
    target {} 1 "c" = .ok ⟨"c", none⟩ ∧ backend.store.Lingers 1000 (revocationKey "c") ∧
      ¬Tells "✅ Revocation lifted"
        (restore {} setting "c" (status {} setting "c" backend).2) := by
  intro setting backend
  have htarget : target {} setting.now "c" = .ok ⟨"c", none⟩ := rfl
  have hlink : backend.link ≠ .failing := by decide
  have hdenotes : Denotes ({} : Settings).auth "c" "c" := denotes_of_target htarget
  refine ⟨htarget, ⟨⟨"1", some 1000⟩, rfl, rfl⟩, ?_⟩
  rw [(restore_agrees_iff {} setting setting setting "c" _ backend htarget hlink).1,
    tells_revoked_iff hdenotes hlink]
  decide

-- And without having asked, one is.
theorem lifted_when_active :
    let setting : Setting := ⟨1, 1000, "", false⟩
    ∃ store, Store.Reachable 0 store ∧
      (store.contains 1000 (revocationKey "c")).1 = false ∧
      (store.delete (revocationKey "c")).1 = true ∧
      Tells "  Status:     ACTIVE" (status {} setting "c" ⟨.working, store⟩) ∧
      Tells "✅ Revocation lifted" (restore {} setting "c" ⟨.working, store⟩) := by
  have hreach : Store.Reachable 0
      (({} : Store).perform 0 (.set (revocationKey "c") "1" 1)).2 :=
    .perform .fresh (Nat.le_refl 0) (by simp [Operation.Fits, Store.endOfTime])
  refine ⟨_, hreach, ?_, ?_, ?_, ?_⟩
  · decide
  · decide
  · exact ⟨_, rfl, rfl, rfl⟩
  · exact ⟨_, rfl, rfl, rfl⟩

end Console

end RequestGuard
