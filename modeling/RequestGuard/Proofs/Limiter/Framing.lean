import RequestGuard.Proofs.Limiter.History
import RequestGuard.Proofs.Store.Framing

namespace RequestGuard.Limiter

variable {settings : LimitSettings} {identity : String} {clock now : Nat} {store : Store}
  {windows : List Window} {step : Step}

-- What every operation of a call keeps, the call keeps. The link stays open.

section Keeps

variable {P : Store → Prop}

theorem countAll_keeps
    (hincrement : ∀ window ∈ windows, ∀ store, P store →
      P (store.increment clock (window.key identity now) (window.left now)).2)
    (h : P store) :
    ∃ next, (countAll identity clock now windows ⟨.working, store⟩).2 = ⟨.working, next⟩ ∧
      P next := by
  induction windows generalizing store with
  | nil => exact ⟨store, rfl, h⟩
  | cons window rest ih =>
      obtain ⟨hwindow, hrest⟩ := List.forall_mem_cons.mp hincrement
      have hnext := hwindow store h
      rw [countAll, Backend.increment_working]
      cases hreply : (store.increment clock (window.key identity now) (window.left now)).1 with
      | failed error => exact ⟨_, rfl, hnext⟩
      | broken crash => exact ⟨_, rfl, hnext⟩
      | done count =>
          obtain ⟨last, hlast, hkept⟩ := ih hrest hnext
          refine ⟨last, ?_, hkept⟩
          dsimp only
          rw [← hlast]
          cases countAll identity clock now rest ⟨.working,
              (store.increment clock (window.key identity now) (window.left now)).2⟩ with
          | mk others _ => cases others <;> rfl

theorem resetAll_keeps
    (herase : ∀ window ∈ windows, ∀ store, P store → P (store.erase (window.key identity now)))
    (h : P store) :
    ∃ next, (resetAll identity now windows ⟨.working, store⟩).2 = ⟨.working, next⟩ ∧ P next := by
  induction windows generalizing store with
  | nil => exact ⟨store, rfl, h⟩
  | cons window rest ih =>
      obtain ⟨hwindow, hrest⟩ := List.forall_mem_cons.mp herase
      obtain ⟨last, hlast, hkept⟩ := ih hrest (hwindow store h)
      refine ⟨last, ?_, hkept⟩
      simp only [resetAll, Backend.delete_working, ← hlast]
      cases resetAll identity now rest ⟨.working, store.erase (window.key identity now)⟩ with
      | mk others _ => cases others <;> rfl

theorem performAt_keeps
    (hincrement : ∀ window ∈ settings.windows, ∀ store, P store →
      P (store.increment step.clock (window.key step.identity now) (window.left now)).2)
    (htouch : ∀ key store, P store → P (store.touch step.clock key))
    (herase : ∀ window ∈ settings.windows, ∀ store, P store →
      P (store.erase (window.key step.identity now)))
    (h : P store) :
    ∃ next, (performAt settings now step ⟨.working, store⟩).2 = ⟨.working, next⟩ ∧ P next := by
  cases hcall : step.call with
  | usage =>
      simp only [performAt, hcall, usage, Backend.get_working]
      exact ⟨_, rfl, htouch _ store h⟩
  | reset =>
      simp only [performAt, hcall, reset]
      exact resetAll_keeps herase h
  | check =>
      simp only [performAt, hcall, check]
      split
      · exact ⟨store, rfl, h⟩
      · split
        · exact ⟨store, rfl, h⟩
        · obtain ⟨next, hnext, hkept⟩ := countAll_keeps hincrement h
          refine ⟨next, ?_, hkept⟩
          rw [← hnext]
          cases countAll step.identity step.clock now settings.windows ⟨.working, store⟩ with
          | mk reply _ => cases reply <;> rfl

end Keeps

-- A call is not seen under a key that is not its own.
theorem performAt_live (settings : LimitSettings) (now : Nat) (step : Step) (store : Store) :
    ∃ next, (performAt settings now step ⟨.working, store⟩).2 = ⟨.working, next⟩ ∧
      ∀ key, (∀ window ∈ settings.windows, key ≠ window.key step.identity now) →
        ∀ later, step.clock ≤ later → next.live later key = store.live later key := by
  refine performAt_keeps (fun window hwindow next h key hkey later hle => ?_)
    (fun other next h key hkey later hle => ?_) (fun window hwindow next h key hkey later hle => ?_)
    fun _ _ _ _ => rfl
  · rw [Store.live_increment_of_ne (hkey window hwindow) _ hle, h key hkey later hle]
  · rw [Store.live_touch next hle, h key hkey later hle]
  · rw [Store.live_erase, if_neg (hkey window hwindow), h key hkey later hle]

end RequestGuard.Limiter
