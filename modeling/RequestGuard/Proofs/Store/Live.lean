import RequestGuard.Store

namespace RequestGuard.Store

-- Every key is there once, so what is found under it is all that is held under it.
theorem find?_eq_some_iff {store : Store} {key : String} {entry : Entry} :
    store.find? key = some entry ↔ (key, entry) ∈ store.entries := by
  have hdistinct := store.distinct
  unfold find?
  generalize store.entries = entries at hdistinct
  induction entries with
  | nil => simp
  | cons head rest ih =>
      obtain ⟨k, e⟩ := head
      rw [List.map_cons, List.nodup_cons] at hdistinct
      by_cases hk : k = key
      · subst hk
        have habsent : (k, entry) ∉ rest := fun hmem =>
          hdistinct.1 (List.mem_map.mpr ⟨_, hmem, rfl⟩)
        simp [habsent, eq_comm]
      · simp [hk, Ne.symm hk, ← ih hdistinct.2]

-- Lookup after each way of changing the entries

theorem find?_erase (store : Store) (key other : String) :
    (store.erase key).find? other = if other = key then none else store.find? other := by
  ext entry
  by_cases h : other = key
  · simp [find?_eq_some_iff, erase, h]
  · simp [find?_eq_some_iff, erase, h]

theorem find?_put (store : Store) (key other : String) (entry : Entry) :
    (store.put key entry).find? other = if other = key then some entry else store.find? other := by
  ext found
  rw [find?_eq_some_iff]
  by_cases h : other = key
  · simp [put, erase, h, eq_comm]
  · simp [find?_eq_some_iff, put, erase, h]

theorem find?_purge (store : Store) (now : Nat) (key : String) :
    (store.purge now).find? key = (store.find? key).filter (!·.isExpired now) := by
  ext entry
  simp [find?_eq_some_iff, purge, Option.filter_eq_some_iff]

-- The live entries: what is held and has not expired

def live (store : Store) (now : Nat) (key : String) : Option Entry :=
  (store.find? key).filter (!·.isExpired now)

theorem isExpired_mono {entry : Entry} {now later : Nat} (hle : now ≤ later)
    (h : entry.isExpired now = true) : entry.isExpired later = true := by
  simp only [Entry.isExpired, Option.any_eq_true, decide_eq_true_eq] at h ⊢
  obtain ⟨deadline, hdeadline, hpast⟩ := h
  exact ⟨deadline, hdeadline, Nat.le_trans hpast hle⟩

theorem live_eq_some_iff {store : Store} {now : Nat} {key : String} {entry : Entry} :
    store.live now key = some entry ↔
      store.find? key = some entry ∧ entry.isExpired now = false := by
  simp [live, Option.filter_eq_some_iff]

-- What is live later is decided by what is live now.
theorem live_later (store : Store) {now later : Nat} (hle : now ≤ later) (key : String) :
    store.live later key = (store.live now key).filter (!·.isExpired later) := by
  ext entry
  simp only [live_eq_some_iff, Option.filter_eq_some_iff, Bool.not_eq_true']
  constructor
  · rintro ⟨hfind, hlater⟩
    refine ⟨⟨hfind, ?_⟩, hlater⟩
    cases hnow : entry.isExpired now with
    | false => rfl
    | true => simp [isExpired_mono hle hnow] at hlater
  · rintro ⟨⟨hfind, -⟩, hlater⟩
    exact ⟨hfind, hlater⟩

theorem live_put (store : Store) (now : Nat) (key other : String) {entry : Entry}
    (hentry : entry.isExpired now = false) :
    (store.put key entry).live now other =
      if other = key then some entry else store.live now other := by
  rw [live, find?_put]
  by_cases h : other = key
  · simp [h, hentry]
  · simp [h, live]

theorem live_erase (store : Store) (now : Nat) (key other : String) :
    (store.erase key).live now other = if other = key then none else store.live now other := by
  rw [live, find?_erase]
  by_cases h : other = key
  · simp [h]
  · simp [h, live]

theorem live_purge (store : Store) {now later : Nat} (hle : now ≤ later) (key : String) :
    (store.purge now).live later key = store.live later key := by
  rw [live, find?_purge, live_later store hle, live]

theorem live_sweep (store : Store) {now later : Nat} (hle : now ≤ later) (key : String) :
    (store.sweep now).live later key = store.live later key := by
  unfold sweep
  split
  · rfl
  · exact live_purge store hle key

theorem live_touch (store : Store) {now later : Nat} (hle : now ≤ later) (key other : String) :
    (store.touch now key).live later other = store.live later other := by
  unfold touch
  split
  · rename_i entry hfind
    split
    · rename_i hexpired
      rw [live_erase]
      split
      · rename_i heq
        simp [heq, live, hfind, Option.filter_some, isExpired_mono hle hexpired]
      · rfl
    · rfl
  · rfl

theorem find?_touch (store : Store) (now : Nat) (key : String) :
    (store.touch now key).find? key = store.live now key := by
  unfold touch
  split
  · rename_i entry hfind
    split
    · rename_i hexpired
      simp [find?_erase, live, hfind, Option.filter_some, hexpired]
    · rename_i hfresh
      simp [live, hfind, Option.filter_some, hfresh]
  · rename_i hfind
    simp [live, hfind]

end RequestGuard.Store
