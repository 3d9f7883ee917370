import RequestGuard.Proofs.Store.Framing
import RequestGuard.Proofs.Store.Residue

namespace RequestGuard

namespace Numeral

theorem readWord_le {text : List Char} {n : Nat} (h : readWord text = some n) : n ≤ maxWord := by
  simp only [readWord] at h
  repeat' split at h
  all_goals cases h
  all_goals assumption

end Numeral

namespace Store

variable {store next : Store} {now later : Nat} {key other : String} {ttl count : Nat}

-- The number that an increment finds under a key: zero if nothing is there any more, and none if
-- what is there is not a number.
def reading (store : Store) (now : Nat) (key : String) : Option Nat :=
  match store.live now key with
  | none => some 0
  | some entry => readWord entry.value

-- When what is there disappears, if it does.
def ending (store : Store) (now : Nat) (key : String) : Option Nat :=
  (store.live now key).bind (·.deadline)

theorem readWord_counterAt (store : Store) (now : Nat) (key : String) :
    readWord (store.counterAt now key).value = store.reading now key := by
  rw [counterAt_eq, reading]
  cases store.live now key with
  | none => decide
  | some entry => rfl

theorem deadline_counterAt (store : Store) (now : Nat) (key : String) :
    (store.counterAt now key).deadline = store.ending now key := by
  rw [counterAt_eq, ending]
  cases store.live now key with
  | none => rfl
  | some entry => rfl

theorem reading_le (h : store.reading now key = some count) : count ≤ Numeral.maxWord := by
  rw [← readWord_counterAt] at h
  exact Numeral.readWord_le h

-- What is live alike now is live alike from now on.
theorem live_congr_later (h : next.live now key = store.live now key) (hle : now ≤ later) :
    next.live later key = store.live later key := by
  rw [live_later next hle, h, ← live_later store hle]

-- A number that has one above it is counted up. The first count begins a lifetime, and every other
-- one leaves that of the entry as it is.
theorem increment_counts (hread : store.reading now key = some count)
    (hmax : count < Numeral.maxWord) (hroom : count = 0 → now + max ttl 1 * 1000 < endOfTime) :
    (store.increment now key ttl).1 = .done (count + 1) ∧
      (store.increment now key ttl).2.live now key = some ⟨decimal (count + 1),
        if count = 0 then some (now + max ttl 1 * 1000) else store.ending now key⟩ := by
  rw [← readWord_counterAt] at hread
  rcases Nat.eq_zero_or_pos count with rfl | hpos
  · obtain ⟨hreply, hlive⟩ := increment_first store now key ttl hread (hroom rfl)
    refine ⟨hreply, ?_⟩
    rw [hlive, if_pos rfl, if_pos rfl]
  · obtain ⟨hreply, hlive⟩ := increment_later store now key ttl hpos hmax hread
    refine ⟨hreply, ?_⟩
    rw [hlive, if_pos rfl, if_neg (Nat.ne_of_gt hpos), deadline_counterAt]

-- A lifetime that the clock cannot show breaks the first count off when it has been written, so it
-- goes without one.
theorem increment_endless (hread : store.reading now key = some 0)
    (hlate : endOfTime ≤ now + max ttl 1 * 1000) :
    (store.increment now key ttl).1 = .broken .deadlineOverflow ∧
      (store.increment now key ttl).2.live now key =
        some ⟨decimal 1, store.ending now key⟩ := by
  have hsmall : ¬Numeral.maxWord ≤ 0 := by decide
  have hnone : deadlineAfter now ttl = none := if_neg (Nat.not_lt.mpr hlate)
  have hfresh : Entry.isExpired ⟨decimal 1, store.ending now key⟩ now = false := by
    rw [← deadline_counterAt]
    exact counterAt_isExpired store now key
  rw [← readWord_counterAt] at hread
  simp only [increment, counterAt_sweep, hread, hsmall, ite_false, Nat.zero_add, ite_true, hnone,
    true_and, deadline_counterAt]
  rw [live_put_sweep store now key hfresh, if_pos rfl]

-- The greatest number has none above it, and what is no number is not counted: both leave all that
-- is live as it is.

theorem increment_full (hread : store.reading now key = some Numeral.maxWord) (ttl : Nat) :
    (store.increment now key ttl).1 = .broken .countOverflow ∧
      ∀ other, (store.increment now key ttl).2.live now other = store.live now other :=
  increment_greatest store now key ttl (Nat.le_refl _)
    ((readWord_counterAt store now key).trans hread)

theorem increment_unread (hread : store.reading now key = none) (ttl : Nat) :
    (store.increment now key ttl).1 =
        .failed (.operation ("value at " ++ key ++ " is not an integer")) ∧
      ∀ other, (store.increment now key ttl).2.live now other = store.live now other :=
  increment_unreadable store now key ttl ((readWord_counterAt store now key).trans hread)

-- An answer is one more than what was there.
theorem reading_of_increment {n : Nat} (h : (store.increment now key ttl).1 = .done n) :
    ∃ count, store.reading now key = some count ∧ n = count + 1 := by
  cases hread : store.reading now key with
  | none =>
      rw [(increment_unread hread ttl).1] at h
      contradiction
  | some count =>
      refine ⟨count, rfl, ?_⟩
      rcases Nat.eq_or_lt_of_le (reading_le hread) with rfl | hmax
      · rw [(increment_full hread ttl).1] at h
        contradiction
      · by_cases hroom : count = 0 → now + max ttl 1 * 1000 < endOfTime
        · rw [(increment_counts hread hmax hroom).1] at h
          exact (Reply.done.inj h).symm
        · obtain ⟨rfl, hlate⟩ := Classical.not_imp.mp hroom
          rw [(increment_endless hread (Nat.not_lt.mp hlate)).1] at h
          contradiction

-- An increment counts up by exactly one or leaves everything as it is, but for two numbers that it
-- breaks off at: the greatest one, and zero when the lifetime that begins there lies beyond the end
-- of the clock. The first breaks it off before anything is written, the second in between. What is
-- live under other keys stays as it is in any case.
theorem increment_succ_or_unchanged (store : Store) (now : Nat) (key : String) (ttl : Nat) :
    let reply := (store.increment now key ttl).1
    let next := (store.increment now key ttl).2
    let deadline := now + max ttl 1 * 1000
    (∀ n, reply = .done n → ∃ count, store.reading now key = some count ∧ n = count + 1) ∧
    (∀ count, store.reading now key = some count → count < Numeral.maxWord →
      (count = 0 → deadline < endOfTime) →
        reply = .done (count + 1) ∧ (next.get now key).1 = some (decimal (count + 1)) ∧
        next.ending now key = if count = 0 then some deadline else store.ending now key) ∧
    (store.reading now key = none →
      reply = .failed (.operation ("value at " ++ key ++ " is not an integer")) ∧
        ∀ later other, now ≤ later → next.live later other = store.live later other) ∧
    (store.reading now key = some Numeral.maxWord → reply = .broken .countOverflow ∧
        ∀ later other, now ≤ later → next.live later other = store.live later other) ∧
    (store.reading now key = some 0 → endOfTime ≤ deadline → reply = .broken .deadlineOverflow ∧
        (next.get now key).1 = some (decimal 1) ∧
        next.ending now key = store.ending now key) ∧
    ∀ later other, now ≤ later → other ≠ key → next.live later other = store.live later other := by
  intro reply next deadline
  refine ⟨fun n => reading_of_increment, fun count hread hmax hroom => ?_, fun hread => ?_,
    fun hread => ?_, fun hread hlate => ?_, fun later other hle hother => ?_⟩
  · obtain ⟨hreply, hlive⟩ := increment_counts hread hmax hroom
    refine ⟨hreply, ?_, ?_⟩
    · rw [get_value, hlive, Option.map_some]
    · rw [ending, hlive, Option.bind_some]
  · obtain ⟨hreply, hlive⟩ := increment_unread hread ttl
    exact ⟨hreply, fun later other hle => live_congr_later (hlive other) hle⟩
  · obtain ⟨hreply, hlive⟩ := increment_full hread ttl
    exact ⟨hreply, fun later other hle => live_congr_later (hlive other) hle⟩
  · obtain ⟨hreply, hlive⟩ := increment_endless hread hlate
    refine ⟨hreply, ?_, ?_⟩
    · rw [get_value, hlive, Option.map_some]
    · rw [ending, hlive, Option.bind_some]
  · exact live_increment_of_ne hother ttl hle

-- The greatest number is written under a key, and a first count is given a lifetime that the clock
-- cannot show. Nothing is answered to either, and the count that has been written never expires.
theorem counts_broken_off :
    (∃ store, Reachable 0 store ∧ store.reading 0 "a" = some Numeral.maxWord ∧
      (store.increment 0 "a" 60).1 = .broken .countOverflow) ∧
    Reachable 0 {} ∧ reading {} 0 "b" = some 0 ∧
      (increment {} 0 "b" Numeral.maxWord).1 = .broken .deadlineOverflow ∧
      ∀ later, (increment {} 0 "b" Numeral.maxWord).2.live later "b" = some ⟨"1", none⟩ := by
  have hreach : Reachable 0
      ((({} : Store).perform 0 (.set "a" "18446744073709551615" 60)).2) :=
    .perform .fresh (Nat.le_refl 0) (by simp [Operation.Fits, endOfTime])
  have hread : Store.reading (({} : Store).perform 0 (.set "a" "18446744073709551615" 60)).2 0 "a" =
      some Numeral.maxWord := by
    decide +kernel
  have hlate : endOfTime ≤ 0 + max Numeral.maxWord 1 * 1000 := by decide
  have hheld : (increment {} 0 "b" Numeral.maxWord).2.find? "b" = some ⟨"1", none⟩ := by
    decide +kernel
  refine ⟨⟨_, hreach, hread, (increment_full hread 60).1⟩, .fresh, rfl,
    (increment_endless rfl hlate).1, fun later => ?_⟩
  exact live_eq_some_iff.mpr ⟨hheld, rfl⟩

end Store

end RequestGuard
