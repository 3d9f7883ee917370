import RequestGuard.Proofs.Limiter.Keys
import RequestGuard.Proofs.Store.Counting
import Mathlib.Data.List.Nodup

namespace RequestGuard

namespace Window

variable {window : Window}

theorem left_pos (hseconds : 0 < window.seconds) (now : Nat) : 0 < window.left now :=
  Nat.sub_pos_of_lt (Nat.mod_lt now hseconds)

theorem left_le (window : Window) (now : Nat) : window.left now ≤ window.seconds :=
  Nat.sub_le _ _

-- The current bucket ends when the time that is left has passed.
theorem bucket_end (hseconds : 0 < window.seconds) (now : Nat) :
    (window.bucket now + 1) * window.seconds = now + window.left now := by
  have hdiv := Nat.div_add_mod now window.seconds
  have hmod := Nat.mod_lt now hseconds
  simp only [bucket, left, Nat.add_mul, Nat.one_mul, Nat.mul_comm (now / window.seconds)]
  omega

theorem lt_bucket_end (hseconds : 0 < window.seconds) {now bucket : Nat}
    (h : window.bucket now ≤ bucket) : now < (bucket + 1) * window.seconds :=
  calc
    now < now + window.left now := Nat.lt_add_of_pos_right (left_pos hseconds now)
    _ = (window.bucket now + 1) * window.seconds := (bucket_end hseconds now).symm
    _ ≤ (bucket + 1) * window.seconds := Nat.mul_le_mul_right _ (Nat.add_le_add_right h 1)

theorem bucket_mono (window : Window) {now later : Nat} (hle : now ≤ later) :
    window.bucket now ≤ window.bucket later :=
  Nat.div_le_div_right hle

end Window

namespace LimitSettings

variable {settings : LimitSettings}

theorem seconds_pos {window : Window} (hmem : window ∈ settings.windows) :
    0 < window.seconds := by
  simp only [windows, primary, List.mem_cons, List.mem_append, Option.mem_toList,
    Option.map_eq_some_iff] at hmem
  rcases hmem with rfl | ⟨limit, -, rfl⟩ | ⟨limit, -, rfl⟩
  · exact Nat.lt_of_lt_of_le Nat.one_pos (Nat.le_max_right _ _)
  · exact Nat.succ_pos _
  · exact Nat.succ_pos _

theorem names_nodup (settings : LimitSettings) : (settings.windows.map (·.name)).Nodup := by
  unfold windows
  cases settings.hourly with
  | none => cases settings.daily <;> simp [primary]
  | some hourly => cases settings.daily <;> simp [primary]

theorem primary_mem (settings : LimitSettings) : settings.primary ∈ settings.windows :=
  List.mem_cons_self

end LimitSettings

-- The answers of a store that is reached are its own.

theorem Backend.increment_working (store : Store) (now : Nat) (key : String) (ttl : Nat) :
    (Backend.mk .working store).increment now key ttl =
      ((store.increment now key ttl).1, ⟨.working, (store.increment now key ttl).2⟩) := rfl

theorem Backend.get_working (store : Store) (now : Nat) (key : String) :
    (Backend.mk .working store).get now key =
      (.done (store.get now key).1, ⟨.working, (store.get now key).2⟩) := rfl

theorem Backend.set_working (store : Store) (now : Nat) (key value : String) (ttl : Nat) :
    (Backend.mk .working store).set now key value ttl =
      ((store.set now key value ttl).1, ⟨.working, (store.set now key value ttl).2⟩) := rfl

theorem Backend.delete_working (store : Store) (key : String) :
    (Backend.mk .working store).delete key =
      (.done (store.find? key).isSome, ⟨.working, store.erase key⟩) := rfl

namespace Limiter

open Store (tallied)

theorem apart_self (identity : String) : Apart identity identity := by
  constructor
  · intro h
    simpa using congrArg String.length h
  · intro h
    simpa using congrArg String.length h

-- One identity has as many keys as there are windows.
theorem key_inj {identity : String} {window other : Window} {i j : Nat}
    (h : counterKey identity window.name i = counterKey identity other.name j) :
    window.name = other.name :=
  (counterKey_apart (apart_self identity) (apart_self identity) h).2.1

theorem key_ne {identity : String} {now : Nat} {window : Window} {rest : List Window}
    (hname : window.name ∉ rest.map (·.name)) :
    ∀ other ∈ rest, other.key identity now ≠ window.key identity now := by
  intro other hmem hkey
  exact hname (key_inj hkey ▸ List.mem_map_of_mem hmem)

-- A check counts one more in every window, and under no other key.
theorem countAll_tallied {identity : String} {clock now : Nat} {windows : List Window}
    {store : Store} {count deadline : Window → Nat} (hnames : (windows.map (·.name)).Nodup)
    (hheld : ∀ window ∈ windows,
      store.find? (window.key identity now) = tallied (count window) (deadline window))
    (hfresh : ∀ window ∈ windows, clock < deadline window)
    (hmax : ∀ window ∈ windows, count window < Numeral.maxWord)
    (hroom : ∀ window ∈ windows, clock + max (window.left now) 1 * 1000 < Store.endOfTime) :
    ∃ next : Store,
      countAll identity clock now windows ⟨.working, store⟩ =
        (.done (windows.map fun window => ⟨window, count window + 1⟩), ⟨.working, next⟩) ∧
      (∀ window ∈ windows, next.find? (window.key identity now) =
        tallied (count window + 1)
          (if count window = 0 then clock + max (window.left now) 1 * 1000
            else deadline window)) ∧
      ∀ key, (∀ window ∈ windows, key ≠ window.key identity now) →
        store.live clock key = store.find? key → next.find? key = store.find? key := by
  induction windows generalizing store with
  | nil => exact ⟨store, rfl, by simp, fun _ _ _ => rfl⟩
  | cons window rest ih =>
      rw [List.map_cons, List.nodup_cons] at hnames
      obtain ⟨hheld, hheldRest⟩ := List.forall_mem_cons.mp hheld
      obtain ⟨hfresh, hfreshRest⟩ := List.forall_mem_cons.mp hfresh
      obtain ⟨hmax, hmaxRest⟩ := List.forall_mem_cons.mp hmax
      obtain ⟨hroom, hroomRest⟩ := List.forall_mem_cons.mp hroom
      -- the keys of the other windows differ, so this increment leaves them alone
      have hother : ∀ other ∈ rest, other.key identity now ≠ window.key identity now :=
        key_ne hnames.1
      obtain ⟨hreply, hcounted⟩ := Store.increment_tallied hheld hfresh hmax fun _ => hroom
      have hkept : ∀ key, key ≠ window.key identity now →
          store.live clock key = store.find? key →
          (store.increment clock (window.key identity now) (window.left now)).2.find? key =
            store.find? key :=
        fun key hkey hlive => Store.find?_increment hkey _ hlive
      obtain ⟨next, hcount, hwindows, hframe⟩ := ih hnames.2
        (fun other hmem => (hkept _ (hother other hmem)
          (Store.live_of_tallied (hheldRest other hmem) (hfreshRest other hmem))).trans
            (hheldRest other hmem)) hfreshRest hmaxRest hroomRest
      refine ⟨next, ?_, ?_, ?_⟩
      · simp only [countAll, Backend.increment_working, hreply, hcount]
        rfl
      · refine List.forall_mem_cons.mpr ⟨?_, hwindows⟩
        have hlater : clock < if count window = 0 then clock + max (window.left now) 1 * 1000
            else deadline window := by
          split
          · omega
          · exact hfresh
        rw [hframe _ (fun other hmem => Ne.symm (hother other hmem))
          (Store.live_of_tallied hcounted hlater), hcounted]
      · intro key hkeys hlive
        obtain ⟨hkey, hkeysRest⟩ := List.forall_mem_cons.mp hkeys
        have hfind := hkept key hkey hlive
        have hlive' : (store.increment clock (window.key identity now) (window.left now)).2.live
            clock key = (store.increment clock (window.key identity now) (window.left now)).2.find?
              key := by
          rw [Store.live, hfind]
          exact hlive
        rw [hframe key hkeysRest hlive', hfind]

-- A reset leaves nothing under the keys of the windows, and tells whether it found anything.
theorem resetAll_erased (identity : String) (now : Nat) (windows : List Window) (store : Store)
    (hnames : (windows.map (·.name)).Nodup) :
    ∃ existed, ∃ next : Store,
      resetAll identity now windows ⟨.working, store⟩ = (.done existed, ⟨.working, next⟩) ∧
      (existed = true ↔ ∃ window ∈ windows, (store.find? (window.key identity now)).isSome) ∧
      (∀ window ∈ windows, next.find? (window.key identity now) = none) ∧
      ∀ key, (∀ window ∈ windows, key ≠ window.key identity now) →
        next.find? key = store.find? key := by
  induction windows generalizing store with
  | nil => exact ⟨false, store, rfl, by simp, by simp, fun _ _ => rfl⟩
  | cons window rest ih =>
      rw [List.map_cons, List.nodup_cons] at hnames
      obtain ⟨existed, next, hreset, hfound, hwindows, hframe⟩ :=
        ih (store.erase (window.key identity now)) hnames.2
      have hother : ∀ other ∈ rest, other.key identity now ≠ window.key identity now :=
        key_ne hnames.1
      refine ⟨(store.find? (window.key identity now)).isSome || existed, next, ?_, ?_, ?_, ?_⟩
      · simp only [resetAll, Backend.delete_working, hreset]
      · rw [Bool.or_eq_true, hfound, List.exists_mem_cons_iff]
        refine or_congr_right (exists_congr fun other => and_congr_right fun hmem => ?_)
        rw [Store.find?_erase, if_neg (hother other hmem)]
      · refine List.forall_mem_cons.mpr ⟨?_, hwindows⟩
        rw [hframe _ fun other hmem => Ne.symm (hother other hmem), Store.find?_erase, if_pos rfl]
      · intro key hkeys
        obtain ⟨hkey, hkeysRest⟩ := List.forall_mem_cons.mp hkeys
        rw [hframe key hkeysRest, Store.find?_erase, if_neg hkey]

end Limiter

end RequestGuard
