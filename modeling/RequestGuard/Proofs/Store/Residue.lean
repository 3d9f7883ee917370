import RequestGuard.Proofs.Store.Counting
import RequestGuard.Proofs.Store.Expiring

namespace RequestGuard

-- The operations that sweep.
def Operation.IsWrite : Operation → Prop
  | increment _ _ => True
  | set _ _ _ => True
  | _ => False

-- The key whose entry an operation is there to change.
def Operation.changed? : Operation → Option String
  | increment key _ => some key
  | set key _ _ => some key
  | delete key => some key
  | _ => none

namespace Store

-- What a fresh store becomes through operations at times that never go back, with the time of
-- the last of them.
inductive Reachable : Nat → Store → Prop where
  | fresh : Reachable 0 {}
  | perform {last now : Nat} {store : Store} {operation : Operation} (h : Reachable last store)
      (hforward : last ≤ now) (hfits : operation.Fits now) :
      Reachable now (store.perform now operation).2

variable {store next : Store} {now : Nat} {key : String} {entry : Entry}

-- Every entry has a deadline, and the last sweep came before it. The sweep bounds what is left
-- over: a write lets no more than the interval pass since the last one.
def Dated (store : Store) : Prop :=
  ∀ key entry, store.find? key = some entry →
    ∃ deadline, entry.deadline = some deadline ∧ store.lastSweep < deadline

theorem Dated.restrict (h : store.Dated) (hlast : next.lastSweep = store.lastSweep)
    (hheld : ∀ key entry, next.find? key = some entry → store.find? key = some entry) :
    next.Dated := by
  intro key entry hfind
  rw [hlast]
  exact h key entry (hheld key entry hfind)

theorem find?_purge_eq_some_iff :
    (store.purge now).find? key = some entry ↔
      store.find? key = some entry ∧ entry.isExpired now = false := by
  rw [find?_purge, Option.filter_eq_some_iff, Bool.not_eq_true']

theorem isExpired_eq_false_iff {deadline : Nat} (h : entry.deadline = some deadline) :
    entry.isExpired now = false ↔ now < deadline := by
  simp [Entry.isExpired, h]

theorem find?_of_erase {other : String} (h : (store.erase other).find? key = some entry) :
    store.find? key = some entry := by
  rw [find?_erase] at h
  split at h
  · contradiction
  · exact h

theorem Dated.purge (h : store.Dated) (now : Nat) : (store.purge now).Dated :=
  h.restrict rfl fun _ _ hfind => (find?_purge_eq_some_iff.mp hfind).1

theorem Dated.erase (h : store.Dated) (key : String) : (store.erase key).Dated :=
  h.restrict rfl fun _ _ => find?_of_erase

theorem Dated.touch (h : store.Dated) (now : Nat) (key : String) : (store.touch now key).Dated := by
  unfold Store.touch
  split
  · split
    · exact h.erase key
    · exact h
  · exact h

-- What a sweep leaves has its deadline after it.
theorem Dated.sweep (h : store.Dated) (now : Nat) : (store.sweep now).Dated := by
  unfold Store.sweep
  split
  · exact h
  · intro key entry hfind
    obtain ⟨hheld, hfresh⟩ := find?_purge_eq_some_iff.mp hfind
    obtain ⟨deadline, hdeadline, -⟩ := h key entry hheld
    exact ⟨deadline, hdeadline, (isExpired_eq_false_iff hdeadline).mp hfresh⟩

theorem Dated.put (h : store.Dated) {deadline : Nat} (hlater : store.lastSweep < deadline)
    (hdeadline : entry.deadline = some deadline) (key : String) : (store.put key entry).Dated := by
  intro other found hfind
  rw [find?_put] at hfind
  split at hfind
  · cases hfind
    exact ⟨deadline, hdeadline, hlater⟩
  · exact h other found hfind

-- A held entry may be given another value.
theorem Dated.rewrite (h : store.Dated) (hheld : store.find? key = some entry) (value : String) :
    (store.put key { entry with value }).Dated := by
  obtain ⟨deadline, hdeadline, hlater⟩ := h key entry hheld
  refine h.put hlater ?_ key
  exact hdeadline

-- The start of a counter has no deadline, but it reads zero: what reads otherwise was held.
theorem find?_of_counterAt (hread : readWord (store.counterAt now key).value ≠ some 0) :
    store.find? key = some (store.counterAt now key) := by
  rw [counterAt_eq] at hread ⊢
  cases hlive : store.live now key with
  | none =>
      rw [hlive] at hread
      exact absurd (by decide) hread
  | some entry => exact (live_eq_some_iff.mp hlive).1

theorem sweep_lastSweep_le (h : store.lastSweep ≤ now) : (store.sweep now).lastSweep ≤ now := by
  unfold sweep
  split
  · exact h
  · exact Nat.le_refl now

theorem lt_sweep_lastSweep (store : Store) (now : Nat) :
    now < (store.sweep now).lastSweep + sweepInterval := by
  unfold sweep
  split
  · omega
  · exact Nat.lt_add_of_pos_right (by decide)

-- An increment leaves no counter without a deadline: the first count is given one, and every
-- other count goes on with that of the entry that was held.
theorem Dated.increment (h : store.Dated) (hlast : store.lastSweep ≤ now) (key : String) {ttl : Nat}
    (hroom : now + max ttl 1 * 1000 < endOfTime) : (store.increment now key ttl).2.Dated := by
  have hswept := h.sweep now
  have hnow := sweep_lastSweep_le hlast
  simp only [Store.increment]
  cases hread : readWord ((store.sweep now).counterAt now key).value with
  | none => exact hswept.rewrite (find?_of_counterAt (by simp [hread])) _
  | some count =>
      by_cases hzero : count = 0
      · have hsmall : ¬Numeral.maxWord ≤ 0 := by decide
        simp only [hzero, hsmall, ite_false, Nat.zero_add, ite_true, deadlineAfter_eq hroom]
        exact hswept.put (by omega) rfl key
      · have hheld : (store.sweep now).find? key = some ((store.sweep now).counterAt now key) :=
          find?_of_counterAt (by simp [hread, hzero])
        have hone : count + 1 ≠ 1 := by omega
        simp only [hone, ite_false]
        split
        · exact hswept.rewrite hheld _
        · exact hswept.rewrite hheld _

theorem Dated.set (h : store.Dated) (hlast : store.lastSweep ≤ now) (key value : String) {ttl : Nat}
    (hroom : now + max ttl 1 * 1000 < endOfTime) : (store.set now key value ttl).2.Dated := by
  have hnow := sweep_lastSweep_le hlast
  simp only [Store.set, deadlineAfter_eq hroom]
  exact (h.sweep now).put (by omega) rfl key

theorem perform_dated (h : store.Dated) (hlast : store.lastSweep ≤ now) {operation : Operation}
    (hfits : operation.Fits now) : (store.perform now operation).2.Dated := by
  cases operation with
  | increment key ttl => exact h.increment hlast key hfits
  | get key => exact h.touch now key
  | set key value ttl => exact h.set hlast key value hfits
  | contains key => exact h.touch now key
  | delete key => exact h.erase key
  | purge => exact h.purge now

-- Writes sweep before they write. Nothing else moves the time of the last sweep.

theorem lastSweep_increment (store : Store) (now : Nat) (key : String) (ttl : Nat) :
    (store.increment now key ttl).2.lastSweep = (store.sweep now).lastSweep := by
  obtain ⟨entry, hput⟩ := increment_eq_put store now key ttl
  rw [hput]
  rfl

theorem lastSweep_set (store : Store) (now : Nat) (key value : String) (ttl : Nat) :
    (store.set now key value ttl).2.lastSweep = (store.sweep now).lastSweep := by
  simp only [set]
  split
  · rfl
  · rfl

theorem lastSweep_touch (store : Store) (now : Nat) (key : String) :
    (store.touch now key).lastSweep = store.lastSweep := by
  unfold touch
  split
  · split
    · rfl
    · rfl
  · rfl

theorem lastSweep_of_write {operation : Operation} (hwrite : operation.IsWrite) (store : Store)
    (now : Nat) : (store.perform now operation).2.lastSweep = (store.sweep now).lastSweep := by
  cases operation with
  | increment key ttl => exact lastSweep_increment store now key ttl
  | set key value ttl => exact lastSweep_set store now key value ttl
  | _ => contradiction

theorem perform_lastSweep_le (h : store.lastSweep ≤ now) (operation : Operation) :
    (store.perform now operation).2.lastSweep ≤ now := by
  have hswept := sweep_lastSweep_le h
  cases operation with
  | increment key ttl => exact lastSweep_increment store now key ttl ▸ hswept
  | set key value ttl => exact lastSweep_set store now key value ttl ▸ hswept
  | get key => exact lastSweep_touch store now key ▸ h
  | contains key => exact lastSweep_touch store now key ▸ h
  | delete key => exact h
  | purge => exact h

theorem dated_of_reachable {last : Nat} (h : Reachable last store) :
    store.Dated ∧ store.lastSweep ≤ last := by
  induction h with
  | fresh => exact ⟨fun _ _ hfind => absurd hfind (by simp [find?]), Nat.le_refl 0⟩
  | perform _ hforward hfits ih =>
      obtain ⟨hdated, hlast⟩ := ih
      have hnow := Nat.le_trans hlast hforward
      exact ⟨perform_dated hdated hnow hfits, perform_lastSweep_le hnow _⟩

-- What has not expired is dropped by a deletion only.

section Unexpired

variable (hfind : store.find? key = some entry) (hfresh : entry.isExpired now = false)
include hfind hfresh

theorem find?_sweep_of_unexpired : (store.sweep now).find? key = some entry := by
  refine (find?_sweep ?_).trans hfind
  simp [live, hfind, Option.filter_some, hfresh]

theorem find?_touch_of_unexpired (other : String) :
    (store.touch now other).find? key = some entry := by
  refine (find?_get ?_).trans hfind
  simp [live, hfind, Option.filter_some, hfresh]

theorem find?_perform_of_unexpired {operation : Operation} (hother : operation.changed? ≠ some key) :
    (store.perform now operation).2.find? key = some entry := by
  have hswept := find?_sweep_of_unexpired hfind hfresh
  cases operation with
  | increment other ttl =>
      have hne : key ≠ other := fun heq => hother (congrArg some heq.symm)
      obtain ⟨written, hput⟩ := increment_eq_put store now other ttl
      simp only [perform]
      rw [hput, find?_put, if_neg hne, hswept]
  | set other value ttl =>
      have hne : key ≠ other := fun heq => hother (congrArg some heq.symm)
      simp only [perform, set]
      split
      · exact hswept
      · rw [find?_put, if_neg hne, hswept]
  | get other => exact find?_touch_of_unexpired hfind hfresh other
  | contains other => exact find?_touch_of_unexpired hfind hfresh other
  | delete other =>
      have hne : key ≠ other := fun heq => hother (congrArg some heq.symm)
      exact (find?_erase store other key).trans ((if_neg hne).trans hfind)
  | purge => exact find?_purge_eq_some_iff.mpr ⟨hfind, hfresh⟩

theorem isSome_find?_perform {operation : Operation} (hkept : operation ≠ .delete key) :
    ((store.perform now operation).2.find? key).isSome = true := by
  by_cases hother : operation.changed? = some key
  · cases operation with
    | increment other ttl =>
        cases hother
        obtain ⟨written, hput⟩ := increment_eq_put store now key ttl
        simp only [perform]
        rw [hput, find?_put, if_pos rfl, Option.isSome_some]
    | set other value ttl =>
        cases hother
        simp only [perform, set]
        split
        · rw [find?_sweep_of_unexpired hfind hfresh, Option.isSome_some]
        · rw [find?_put, if_pos rfl, Option.isSome_some]
    | delete other =>
        cases hother
        contradiction
    | _ => contradiction
  · rw [find?_perform_of_unexpired hfind hfresh hother, Option.isSome_some]

end Unexpired

theorem expiredCount_eq_countP (store : Store) (now : Nat) :
    store.expiredCount now = store.entries.countP (·.2.isExpired now) := by
  have hsplit := List.length_eq_countP_add_countP (l := store.entries) (·.2.isExpired now)
  simp only [expiredCount, size, purge, ← List.countP_eq_length_filter]
  simp only [Bool.not_eq_true, Bool.decide_eq_false] at hsplit
  omega

-- Nothing is held for ever: every entry has a deadline, and a write leaves none whose deadline
-- lies further back than the sweep interval. What has not expired is safe from sweeps, purges
-- and lazy removal, and a purge lets go of all that has.
theorem residue_bounded {last : Nat} (h : Reachable last store) (hforward : last ≤ now) :
    (∀ key entry, store.find? key = some entry → ∃ deadline, entry.deadline = some deadline) ∧
      (∀ operation, operation.IsWrite → operation.Fits now → ∀ key entry,
        (store.perform now operation).2.find? key = some entry →
          ∃ deadline, entry.deadline = some deadline ∧ now < deadline + sweepInterval) ∧
      (∀ key entry deadline, store.find? key = some entry → entry.deadline = some deadline →
        now < deadline →
          (store.sweep now).find? key = some entry ∧ (store.purge now).find? key = some entry ∧
          (∀ other, (store.touch now other).find? key = some entry) ∧
          ∀ operation,
            (operation.changed? ≠ some key →
              (store.perform now operation).2.find? key = some entry) ∧
            (operation ≠ .delete key →
              ((store.perform now operation).2.find? key).isSome = true)) ∧
      store.expiredCount now = store.entries.countP (·.2.isExpired now) ∧
      ∀ key entry, (store.purge now).find? key = some entry ↔
        store.find? key = some entry ∧ ∃ deadline, entry.deadline = some deadline ∧
          now < deadline := by
  obtain ⟨hdated, hlast⟩ := dated_of_reachable h
  have hnow := Nat.le_trans hlast hforward
  refine ⟨fun key entry hfind => ?_, fun operation hwrite hfits key entry hfind => ?_,
    fun key entry deadline hfind hdeadline hlater => ?_, expiredCount_eq_countP store now,
    fun key entry => ?_⟩
  · obtain ⟨deadline, hdeadline, -⟩ := hdated key entry hfind
    exact ⟨deadline, hdeadline⟩
  · obtain ⟨deadline, hdeadline, hlater⟩ := perform_dated hdated hnow hfits key entry hfind
    have hrecent := lt_sweep_lastSweep store now
    rw [lastSweep_of_write hwrite] at hlater
    exact ⟨deadline, hdeadline, by omega⟩
  · have hfresh := (isExpired_eq_false_iff hdeadline).mpr hlater
    exact ⟨find?_sweep_of_unexpired hfind hfresh, find?_purge_eq_some_iff.mpr ⟨hfind, hfresh⟩,
      find?_touch_of_unexpired hfind hfresh, fun operation =>
        ⟨find?_perform_of_unexpired hfind hfresh, isSome_find?_perform hfind hfresh⟩⟩
  · rw [find?_purge_eq_some_iff]
    refine and_congr_right fun hfind => ?_
    obtain ⟨deadline, hdeadline, -⟩ := hdated key entry hfind
    rw [isExpired_eq_false_iff hdeadline]
    constructor
    · exact fun hlater => ⟨deadline, hdeadline, hlater⟩
    · rintro ⟨other, hother, hlater⟩
      cases hdeadline.symm.trans hother
      exact hlater

-- Shortly before a sweep is due one counter has long expired and another entry has not. The sweep
-- comes thirty seconds after the one before it and takes the first with it.
theorem residue_bounded_at_sweep :
    ∃ store, Reachable 29999 store ∧ 29999 ≤ 30000 ∧ store.size = 2 ∧
      store.find? "b" = some ⟨"x", some 30999⟩ ∧
      (store.sweep 29999).find? "a" = some ⟨"1", some 1000⟩ ∧
      (store.sweep 30000).find? "a" = none ∧
      (store.sweep 30000).find? "b" = some ⟨"x", some 30999⟩ ∧
      store.expiredCount 30000 = store.entries.countP (·.2.isExpired 30000) ∧
      ∀ key entry, (store.perform 30000 (.set "c" "1" 5)).2.find? key = some entry →
        ∃ deadline, entry.deadline = some deadline ∧ 30000 < deadline + 30000 := by
  have hreach : Reachable 29999 ((({} : Store).perform 0 (.increment "a" 1)).2.perform 29999
      (.set "b" "x" 1)).2 :=
    .perform (.perform .fresh (Nat.le_refl 0) (by simp [Operation.Fits, endOfTime])) (by decide)
      (by simp [Operation.Fits, endOfTime])
  obtain ⟨-, hwrites, hkept, hcount, -⟩ := residue_bounded hreach (show 29999 ≤ 30000 by decide)
  have hheld : ((({} : Store).perform 0 (.increment "a" 1)).2.perform 29999
      (.set "b" "x" 1)).2.find? "b" = some ⟨"x", some 30999⟩ := by decide +kernel
  exact ⟨_, hreach, by decide, by decide +kernel, hheld, by decide +kernel, by decide +kernel,
    (hkept _ _ _ hheld rfl (by decide)).1, hcount,
    hwrites _ trivial (by simp [Operation.Fits, endOfTime])⟩

end Store

end RequestGuard
