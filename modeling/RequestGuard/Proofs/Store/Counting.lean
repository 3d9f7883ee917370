import RequestGuard.Proofs.Store.Operations

namespace RequestGuard.Store

-- The entry of a counter: none as long as nothing has been counted.
def tallied (count deadline : Nat) : Option Entry :=
  if count = 0 then none else some ⟨decimal count, some deadline⟩

@[simp] theorem tallied_zero (deadline : Nat) : tallied 0 deadline = none := rfl

@[simp] theorem tallied_succ (count deadline : Nat) :
    tallied (count + 1) deadline = some ⟨decimal (count + 1), some deadline⟩ := rfl

theorem tallied_isSome (count deadline : Nat) :
    (tallied count deadline).isSome = true ↔ 0 < count := by
  cases count with
  | zero => simp
  | succ count => simp

variable {store : Store} {now : Nat} {key : String} {count deadline : Nat}

theorem live_of_tallied (h : store.find? key = tallied count deadline) (hfresh : now < deadline) :
    store.live now key = store.find? key := by
  rw [live, h]
  cases count with
  | zero => rfl
  | succ count => simp [Option.filter_some, Entry.isExpired, hfresh]

-- An operation on one key takes away what has expired under the others, and nothing else.

theorem find?_sweep (hlive : store.live now key = store.find? key) :
    (store.sweep now).find? key = store.find? key := by
  unfold sweep
  split
  · rfl
  · exact (find?_purge store now key).trans hlive

theorem increment_eq_put (store : Store) (now : Nat) (key : String) (ttl : Nat) :
    ∃ entry, (store.increment now key ttl).2 = (store.sweep now).put key entry := by
  simp only [increment]
  repeat' split
  all_goals exact ⟨_, rfl⟩

theorem find?_increment {other : String} (hother : other ≠ key) (ttl : Nat)
    (hlive : store.live now other = store.find? other) :
    (store.increment now key ttl).2.find? other = store.find? other := by
  obtain ⟨entry, hput⟩ := increment_eq_put store now key ttl
  rw [hput, find?_put, if_neg hother, find?_sweep hlive]

theorem find?_get {other : String} (hlive : store.live now other = store.find? other) :
    (store.get now key).2.find? other = store.find? other := by
  simp only [get, touch]
  split
  · rename_i entry hfind
    split
    · rename_i hexpired
      rw [find?_erase]
      split
      · rename_i heq
        rw [heq, live, hfind, Option.filter_some, hexpired] at hlive
        simp at hlive
      · rfl
    · rfl
  · rfl

-- A counter that is held counts one more, and its deadline is that of the first count.
theorem increment_tallied {ttl : Nat} (h : store.find? key = tallied count deadline)
    (hfresh : now < deadline) (hmax : count < Numeral.maxWord)
    (hroom : count = 0 → now + max ttl 1 * 1000 < endOfTime) :
    (store.increment now key ttl).1 = .done (count + 1) ∧
      (store.increment now key ttl).2.find? key =
        tallied (count + 1) (if count = 0 then now + max ttl 1 * 1000 else deadline) := by
  have hstart := counterAt_eq store now key
  rw [live_of_tallied h hfresh, h] at hstart
  cases count with
  | zero =>
      have hread : readWord (store.counterAt now key).value = some 0 := by
        rw [hstart, tallied_zero]
        decide
      obtain ⟨hreply, hnext⟩ := increment_first store now key ttl hread (hroom rfl)
      have hkey := hnext key
      rw [if_pos rfl] at hkey
      exact ⟨hreply, (live_eq_some_iff.mp hkey).1⟩
  | succ count =>
      rw [tallied_succ, Option.getD_some] at hstart
      have hread : readWord (store.counterAt now key).value = some (count + 1) := by
        rw [hstart]
        exact readWord_decimal (Nat.le_of_lt hmax)
      obtain ⟨hreply, hnext⟩ := increment_later store now key ttl (Nat.succ_pos count) hmax hread
      have hkey := hnext key
      rw [if_pos rfl, hstart] at hkey
      exact ⟨hreply, (live_eq_some_iff.mp hkey).1⟩

-- A held counter does not fail. Only a first count whose deadline lies beyond the end of the
-- clock breaks off.
theorem increment_tallied_or_overflow (h : store.find? key = tallied count deadline)
    (hfresh : now < deadline) (hmax : count < Numeral.maxWord) (ttl : Nat) :
    (∃ later, now < later ∧ (store.increment now key ttl).1 = .done (count + 1) ∧
        (store.increment now key ttl).2.find? key = tallied (count + 1) later) ∨
      ¬now + max ttl 1 * 1000 < endOfTime ∧
        (store.increment now key ttl).1 = .broken .deadlineOverflow := by
  by_cases hroom : count = 0 → now + max ttl 1 * 1000 < endOfTime
  · obtain ⟨hreply, hfind⟩ := increment_tallied h hfresh hmax hroom
    refine .inl ⟨_, ?_, hreply, hfind⟩
    split
    · omega
    · exact hfresh
  · obtain ⟨hzero, hlate⟩ := Classical.not_imp.mp hroom
    have hread : readWord (store.counterAt now key).value = some 0 := by
      rw [counterAt_eq, live_of_tallied h hfresh, h, hzero, tallied_zero]
      decide
    exact .inr ⟨hlate, increment_overflow store now key ttl hread hlate⟩

theorem get_tallied (h : store.find? key = tallied count deadline) (hfresh : now < deadline)
    (hmax : count ≤ Numeral.maxWord) :
    ((store.get now key).1.bind readWord).getD 0 = count := by
  rw [get_value, live_of_tallied h hfresh, h]
  cases count with
  | zero => rfl
  | succ count =>
      rw [tallied_succ, Option.map_some, Option.bind_some, readWord_decimal hmax, Option.getD_some]

end RequestGuard.Store
