import RequestGuard.Proofs.Store.Live
import RequestGuard.Proofs.Text.Numeral

namespace RequestGuard.Store

-- Where an increment starts

theorem counterAt_eq (store : Store) (now : Nat) (key : String) :
    store.counterAt now key = (store.live now key).getD ⟨"0", none⟩ := by
  unfold counterAt live
  cases store.find? key with
  | none => rfl
  | some entry =>
      by_cases h : entry.isExpired now = true
      · simp [Option.filter_some, h]
      · simp [Option.filter_some, h]

theorem counterAt_sweep (store : Store) (now : Nat) (key : String) :
    (store.sweep now).counterAt now key = store.counterAt now key := by
  rw [counterAt_eq, counterAt_eq, live_sweep store (Nat.le_refl now)]

theorem counterAt_isExpired (store : Store) (now : Nat) (key : String) :
    (store.counterAt now key).isExpired now = false := by
  rw [counterAt_eq]
  cases h : store.live now key with
  | none => rfl
  | some entry => exact (live_eq_some_iff.mp h).2

variable (store : Store) (now : Nat) (key : String) (ttl : Nat)

-- Writing an entry behind the sweep

theorem live_put_sweep {entry : Entry} (hentry : entry.isExpired now = false) (other : String) :
    ((store.sweep now).put key entry).live now other =
      if other = key then some entry else store.live now other := by
  rw [live_put _ _ _ _ hentry, live_sweep store (Nat.le_refl now)]

-- A fresh start reads zero, so whatever else is read was held, and writing it again changes
-- nothing.
theorem live_put_counterAt (hread : readWord (store.counterAt now key).value ≠ some 0)
    (other : String) :
    ((store.sweep now).put key (store.counterAt now key)).live now other =
      store.live now other := by
  rw [live_put_sweep store now key (counterAt_isExpired store now key)]
  split
  · rename_i heq
    rw [counterAt_eq] at hread ⊢
    cases hlive : store.live now key with
    | none =>
        rw [hlive] at hread
        exact absurd (by decide) hread
    | some entry => rw [heq, hlive, Option.getD_some]
  · rfl

theorem isExpired_deadline (value : String) :
    Entry.isExpired ⟨value, some (now + max ttl 1 * 1000)⟩ now = false := by
  simp only [Entry.isExpired, Option.any_some, decide_eq_false_iff_not]
  omega

theorem deadlineAfter_eq {now ttl : Nat} (hroom : now + max ttl 1 * 1000 < endOfTime) :
    deadlineAfter now ttl = some (now + max ttl 1 * 1000) := by
  simp [deadlineAfter, hroom]

-- What each operation answers and what is live after it

theorem increment_unreadable (hread : readWord (store.counterAt now key).value = none) :
    (store.increment now key ttl).1 =
        .failed (.operation ("value at " ++ key ++ " is not an integer")) ∧
      ∀ other, (store.increment now key ttl).2.live now other = store.live now other := by
  simp only [increment, counterAt_sweep, hread, true_and]
  exact live_put_counterAt store now key (by simp [hread])

theorem increment_greatest {count : Nat} (hmax : Numeral.maxWord ≤ count)
    (hread : readWord (store.counterAt now key).value = some count) :
    (store.increment now key ttl).1 = .broken .countOverflow ∧
      ∀ other, (store.increment now key ttl).2.live now other = store.live now other := by
  have hpos : count ≠ 0 := by
    rintro rfl
    exact absurd hmax (by decide)
  simp only [increment, counterAt_sweep, hread, hmax, ite_true, true_and]
  exact live_put_counterAt store now key (by simp [hread, hpos])

-- The increment that reaches one sets the deadline.
theorem increment_first (hread : readWord (store.counterAt now key).value = some 0)
    (hroom : now + max ttl 1 * 1000 < endOfTime) :
    (store.increment now key ttl).1 = .done 1 ∧
      ∀ other, (store.increment now key ttl).2.live now other =
        if other = key then some ⟨decimal 1, some (now + max ttl 1 * 1000)⟩
        else store.live now other := by
  have hsmall : ¬Numeral.maxWord ≤ 0 := by decide
  simp only [increment, counterAt_sweep, hread, hsmall, ite_false, Nat.zero_add, ite_true,
    deadlineAfter_eq hroom, true_and]
  exact live_put_sweep store now key (isExpired_deadline now ttl _)

theorem increment_overflow (hread : readWord (store.counterAt now key).value = some 0)
    (hroom : ¬now + max ttl 1 * 1000 < endOfTime) :
    (store.increment now key ttl).1 = .broken .deadlineOverflow := by
  have hsmall : ¬Numeral.maxWord ≤ 0 := by decide
  have hnone : deadlineAfter now ttl = none := by simp [deadlineAfter, hroom]
  simp only [increment, counterAt_sweep, hread, hsmall, ite_false, Nat.zero_add, ite_true, hnone]

-- A later one leaves it where it is.
theorem increment_later {count : Nat} (hpos : 0 < count) (hmax : count < Numeral.maxWord)
    (hread : readWord (store.counterAt now key).value = some count) :
    (store.increment now key ttl).1 = .done (count + 1) ∧
      ∀ other, (store.increment now key ttl).2.live now other =
        if other = key then
          some ⟨decimal (count + 1), (store.counterAt now key).deadline⟩
        else store.live now other := by
  have hone : count + 1 ≠ 1 := by omega
  simp only [increment, counterAt_sweep, hread, Nat.not_le.mpr hmax, ite_false, hone, true_and]
  exact live_put_sweep store now key (counterAt_isExpired store now key)

theorem get_value : (store.get now key).1 = (store.live now key).map (·.value) := by
  simp [get, find?_touch]

theorem live_get {later : Nat} (hle : now ≤ later) (other : String) :
    (store.get now key).2.live later other = store.live later other :=
  live_touch store hle key other

theorem contains_found : (store.contains now key).1 = (store.live now key).isSome := by
  simp [contains, find?_touch]

theorem live_contains {later : Nat} (hle : now ≤ later) (other : String) :
    (store.contains now key).2.live later other = store.live later other :=
  live_touch store hle key other

theorem set_written (value : String) (hroom : now + max ttl 1 * 1000 < endOfTime) :
    (store.set now key value ttl).1 = .done () ∧
      ∀ other, (store.set now key value ttl).2.live now other =
        if other = key then some ⟨value, some (now + max ttl 1 * 1000)⟩
        else store.live now other := by
  simp only [set, deadlineAfter_eq hroom, true_and]
  exact live_put_sweep store now key (isExpired_deadline now ttl value)

theorem live_delete (other : String) :
    (store.delete key).2.live now other =
      if other = key then none else store.live now other :=
  live_erase store now key other

end RequestGuard.Store
