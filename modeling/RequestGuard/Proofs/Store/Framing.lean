import RequestGuard.Proofs.Store.Counting

namespace RequestGuard.Store

variable {store : Store} {now later : Nat} {key other : String}

-- A write under one key is not seen under another.

theorem live_put_of_ne (store : Store) (now : Nat) (entry : Entry) (hother : other ≠ key) :
    (store.put key entry).live now other = store.live now other := by
  rw [live, find?_put, if_neg hother, live]

theorem live_increment_of_ne (hother : other ≠ key) (ttl : Nat) (hle : now ≤ later) :
    (store.increment now key ttl).2.live later other = store.live later other := by
  obtain ⟨entry, hput⟩ := increment_eq_put store now key ttl
  rw [hput, live_put_of_ne _ _ _ hother, live_sweep store hle]

theorem live_set_of_ne (hother : other ≠ key) (value : String) (ttl : Nat) (hle : now ≤ later) :
    (store.set now key value ttl).2.live later other = store.live later other := by
  have hsweep := live_sweep store hle other
  simp only [set]
  split
  · exact hsweep
  · exact (live_put_of_ne _ _ _ hother).trans hsweep

-- A set that answers leaves the value under its key until the time of it has passed.
theorem live_set_self {ttl : Nat} {value : String}
    (hset : (store.set now key value ttl).1 = .done ()) (hle : now ≤ later) :
    (store.set now key value ttl).2.live later key =
      if later < now + max ttl 1 * 1000 then some ⟨value, some (now + max ttl 1 * 1000)⟩
      else none := by
  have hroom : now + max ttl 1 * 1000 < endOfTime := by
    refine Classical.byContradiction fun hlate => ?_
    simp [set, deadlineAfter, hlate] at hset
  have hlive := (set_written store now key ttl value hroom).2 key
  rw [live_later _ hle, hlive, if_pos rfl]
  by_cases hfresh : later < now + max ttl 1 * 1000
  · rw [if_pos hfresh]
    simp [Option.filter_some, Entry.isExpired, hfresh]
  · rw [if_neg hfresh]
    simp [Option.filter_some, Entry.isExpired, Nat.le_of_not_lt hfresh]

theorem live_delete_of_ne (hother : other ≠ key) :
    (store.delete key).2.live now other = store.live now other := by
  rw [live_delete, if_neg hother]

-- An increment depends on what is live under its key only: two stores that agree there answer
-- alike and write the same entry.
theorem increment_congr {one two : Store} (h : one.live now key = two.live now key) (ttl : Nat) :
    (one.increment now key ttl).1 = (two.increment now key ttl).1 ∧
      ∃ entry, (one.increment now key ttl).2 = (one.sweep now).put key entry ∧
        (two.increment now key ttl).2 = (two.sweep now).put key entry := by
  have hstart : (one.sweep now).counterAt now key = (two.sweep now).counterAt now key := by
    rw [counterAt_sweep, counterAt_sweep, counterAt_eq, counterAt_eq, h]
  simp only [increment, hstart]
  cases readWord ((two.sweep now).counterAt now key).value with
  | none => exact ⟨rfl, _, rfl, rfl⟩
  | some count =>
      by_cases hmax : Numeral.maxWord ≤ count
      · simp only [if_pos hmax, true_and]
        exact ⟨_, rfl, rfl⟩
      · simp only [if_neg hmax]
        split
        · cases deadlineAfter now ttl with
          | none => exact ⟨rfl, _, rfl, rfl⟩
          | some deadline => exact ⟨rfl, _, rfl, rfl⟩
        · exact ⟨rfl, _, rfl, rfl⟩

theorem live_increment_congr {one two : Store} (h : one.live now key = two.live now key) (ttl : Nat)
    (hother : one.live now other = two.live now other) :
    (one.increment now key ttl).2.live now other =
      (two.increment now key ttl).2.live now other := by
  obtain ⟨-, entry, hone, htwo⟩ := increment_congr h ttl
  rw [hone, htwo]
  by_cases heq : other = key
  · simp only [live, find?_put, if_pos heq]
  · rw [live_put_of_ne _ _ _ heq, live_put_of_ne _ _ _ heq, live_sweep one (Nat.le_refl now),
      live_sweep two (Nat.le_refl now), hother]

-- What is held under a key, expired or not, has a deadline that some write gave it.

def HoldsUntil (store : Store) (key : String) (deadline : Nat) : Prop :=
  ∃ entry, store.find? key = some entry ∧ entry.deadline = some deadline

variable {deadline : Nat}

theorem HoldsUntil.of_filter {next : Store} {keeps : Entry → Bool}
    (hnext : next.find? key = (store.find? key).filter keeps) (h : next.HoldsUntil key deadline) :
    store.HoldsUntil key deadline := by
  obtain ⟨entry, hfind, hdeadline⟩ := h
  rw [hnext, Option.filter_eq_some_iff] at hfind
  exact ⟨entry, hfind.1, hdeadline⟩

theorem HoldsUntil.of_sweep (h : (store.sweep now).HoldsUntil key deadline) :
    store.HoldsUntil key deadline := by
  unfold sweep at h
  split at h
  · exact h
  · exact h.of_filter (find?_purge store now key)

theorem HoldsUntil.of_erase (h : (store.erase other).HoldsUntil key deadline) :
    store.HoldsUntil key deadline := by
  obtain ⟨entry, hfind, hdeadline⟩ := h
  rw [find?_erase] at hfind
  split at hfind
  · contradiction
  · exact ⟨entry, hfind, hdeadline⟩

theorem HoldsUntil.of_touch (h : (store.touch now other).HoldsUntil key deadline) :
    store.HoldsUntil key deadline := by
  unfold touch at h
  split at h
  · split at h
    · exact h.of_erase
    · exact h
  · exact h

theorem HoldsUntil.of_put {entry : Entry} (h : (store.put other entry).HoldsUntil key deadline) :
    store.HoldsUntil key deadline ∨ key = other ∧ entry.deadline = some deadline := by
  obtain ⟨found, hfind, hdeadline⟩ := h
  rw [find?_put] at hfind
  split at hfind
  · next heq =>
      cases hfind
      exact .inr ⟨heq, hdeadline⟩
  · exact .inl ⟨found, hfind, hdeadline⟩

-- A counter goes on with the deadline of the entry that it is held in.
theorem holdsUntil_of_counterAt (h : (store.counterAt now key).deadline = some deadline) :
    store.HoldsUntil key deadline := by
  unfold counterAt at h
  split at h
  · next entry hfind =>
      split at h
      · contradiction
      · exact ⟨entry, hfind, h⟩
  · contradiction

theorem HoldsUntil.of_increment {ttl : Nat}
    (h : (store.increment now other ttl).2.HoldsUntil key deadline) :
    store.HoldsUntil key deadline ∨ key = other ∧ deadline = now + max ttl 1 * 1000 := by
  have hheld (value : String) (hput : ((store.sweep now).put other
      ⟨value, ((store.sweep now).counterAt now other).deadline⟩).HoldsUntil key deadline) :
      store.HoldsUntil key deadline := by
    rcases hput.of_put with hkept | ⟨rfl, hdeadline⟩
    · exact hkept.of_sweep
    · exact (holdsUntil_of_counterAt hdeadline).of_sweep
  simp only [increment] at h
  split at h
  · exact .inl (hheld _ h)
  · split at h
    · exact .inl (hheld _ h)
    · split at h
      · split at h
        · exact .inl (hheld _ h)
        · next fresh hfresh =>
            rcases h.of_put with hkept | ⟨rfl, hdeadline⟩
            · exact .inl hkept.of_sweep
            · cases hdeadline
              refine .inr ⟨rfl, ?_⟩
              simp only [deadlineAfter] at hfresh
              split at hfresh
              · exact (Option.some.inj hfresh).symm
              · contradiction
      · exact .inl (hheld _ h)

end RequestGuard.Store
