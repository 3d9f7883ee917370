import RequestGuard.Proofs.Limiter.Windows

namespace RequestGuard

namespace Store

variable {store : Store} {now : Nat} {key : String} {ttl count : Nat}

-- The number that an increment starts from, if there is one.
def reads (store : Store) (now : Nat) (key : String) : Option Nat :=
  readWord (store.counterAt now key).value

theorem reads_congr {other : Store} (h : other.live now key = store.live now key) :
    other.reads now key = store.reads now key := by
  rw [reads, reads, counterAt_eq, counterAt_eq, h]

theorem reads_of_live {value : String} {deadline : Option Nat}
    (h : store.live now key = some ⟨value, deadline⟩) : store.reads now key = readWord value := by
  rw [reads, counterAt_eq, h, Option.getD_some]

-- An increment that answers has counted one more, and nothing else has changed.
theorem increment_of_done (h : (store.increment now key ttl).1 = .done count) :
    ∃ before, store.reads now key = some before ∧
      (store.increment now key ttl).2.reads now key = some (before + 1) ∧
      ∀ other, other ≠ key →
        (store.increment now key ttl).2.live now other = store.live now other := by
  cases hread : readWord (store.counterAt now key).value with
  | none =>
      rw [(increment_unreadable store now key ttl hread).1] at h
      contradiction
  | some before =>
      by_cases hmax : Numeral.maxWord ≤ before
      · rw [(increment_greatest store now key ttl hmax hread).1] at h
        contradiction
      rw [Nat.not_le] at hmax
      have hword : readWord (decimal (before + 1)) = some (before + 1) := readWord_decimal hmax
      by_cases hpos : 0 < before
      · obtain ⟨-, hlive⟩ := increment_later store now key ttl hpos hmax hread
        have hkey := hlive key
        rw [if_pos rfl] at hkey
        refine ⟨before, hread, (reads_of_live hkey).trans hword, fun other hother => ?_⟩
        rw [hlive other, if_neg hother]
      · obtain rfl : before = 0 := Nat.eq_zero_of_not_pos hpos
        by_cases hroom : now + max ttl 1 * 1000 < endOfTime
        · obtain ⟨-, hlive⟩ := increment_first store now key ttl hread hroom
          have hkey := hlive key
          rw [if_pos rfl] at hkey
          refine ⟨0, hread, (reads_of_live hkey).trans hword, fun other hother => ?_⟩
          rw [hlive other, if_neg hother]
        · rw [increment_overflow store now key ttl hread hroom] at h
          contradiction

-- An increment of a number that has room answers.
theorem increment_done {before : Nat} (hread : store.reads now key = some before)
    (hmax : before < Numeral.maxWord) (hroom : now + max ttl 1 * 1000 < endOfTime) :
    (store.increment now key ttl).1 = .done (before + 1) := by
  by_cases hpos : 0 < before
  · exact (increment_later store now key ttl hpos hmax hread).1
  · obtain rfl : before = 0 := Nat.eq_zero_of_not_pos hpos
    exact (increment_first store now key ttl hread hroom).1

end Store

namespace Backend

variable {backend next : Backend} {now : Nat} {key : String} {ttl count : Nat}

-- A store that answers an increment is the store that is held.
theorem store_of_increment (h : backend.increment now key ttl = (.done count, next)) :
    (backend.store.increment now key ttl).1 = .done count ∧
      next.store = (backend.store.increment now key ttl).2 := by
  obtain ⟨link, store⟩ := backend
  match link with
  | .working =>
      obtain ⟨hreply, rfl⟩ := Prod.mk.inj h
      exact ⟨hreply, rfl⟩
  | .failing => cases h
  | .incrementsLeft 0 => cases h
  | .incrementsLeft (n + 1) =>
      obtain ⟨hreply, rfl⟩ := Prod.mk.inj h
      exact ⟨hreply, rfl⟩

end Backend

namespace Limiter

variable {identity : String} {clock now : Nat} {windows : List Window} {backend next : Backend}

theorem countAll_cons_eq_done {window : Window} {rest : List Window} {counts : List Counted}
    (h : countAll identity clock now (window :: rest) backend = (.done counts, next)) :
    ∃ count counted others,
      backend.increment clock (window.key identity now) (window.left now) =
        (.done count, counted) ∧
      countAll identity clock now rest counted = (.done others, next) := by
  rw [countAll] at h
  split at h
  · simp at h
  · simp at h
  · next count counted hcount =>
      split at h
      · next others last hrest =>
          obtain ⟨-, rfl⟩ := Prod.mk.inj h
          exact ⟨count, counted, others, hcount, hrest⟩
      · simp at h
      · simp at h

-- Between two stores somebody has been counted once in every window, and nothing else has
-- changed.
structure CountedOnce (windows : List Window) (identity : String) (clock now : Nat)
    (store after : Store) : Prop where
  once : ∀ window ∈ windows, ∃ before,
    store.reads clock (window.key identity now) = some before ∧
    after.reads clock (window.key identity now) = some (before + 1)
  others : ∀ key, (∀ window ∈ windows, key ≠ window.key identity now) →
    after.live clock key = store.live clock key

theorem CountedOnce.congr {store other after : Store}
    (h : CountedOnce windows identity clock now store after)
    (hlive : ∀ key, store.live clock key = other.live clock key) :
    CountedOnce windows identity clock now other after := by
  refine ⟨fun window hwindow => ?_, fun key hkey => (h.others key hkey).trans (hlive key)⟩
  obtain ⟨before, hreads, hafter⟩ := h.once window hwindow
  exact ⟨before, (Store.reads_congr (hlive _).symm).trans hreads, hafter⟩

-- A check that is answered counts once in every window.
theorem countAll_of_done {counts : List Counted} (hnames : (windows.map (·.name)).Nodup)
    (h : countAll identity clock now windows backend = (.done counts, next)) :
    CountedOnce windows identity clock now backend.store next.store := by
  induction windows generalizing backend counts with
  | nil =>
      cases h
      exact ⟨fun window hwindow => absurd hwindow List.not_mem_nil, fun _ _ => rfl⟩
  | cons window rest ih =>
      rw [List.map_cons, List.nodup_cons] at hnames
      have hother : ∀ other ∈ rest, other.key identity now ≠ window.key identity now :=
        key_ne hnames.1
      obtain ⟨count, counted, others, hcount, hrest⟩ := countAll_cons_eq_done h
      obtain ⟨hreply, hstore⟩ := Backend.store_of_increment hcount
      obtain ⟨before, hbefore, hafter, hframe⟩ := Store.increment_of_done hreply
      rw [← hstore] at hafter hframe
      obtain ⟨hwindows, hlive⟩ := ih hnames.2 hrest
      refine ⟨List.forall_mem_cons.mpr ⟨⟨before, hbefore, ?_⟩, fun other hmem => ?_⟩,
        fun key hkeys => ?_⟩
      · rw [Store.reads_congr (hlive _ fun other hmem => Ne.symm (hother other hmem)), hafter]
      · obtain ⟨n, hn, hnext⟩ := hwindows other hmem
        rw [Store.reads_congr (hframe _ (hother other hmem))] at hn
        exact ⟨n, hn, hnext⟩
      · obtain ⟨hkey, hkeysRest⟩ := List.forall_mem_cons.mp hkeys
        rw [hlive key hkeysRest, hframe key hkey]

-- The store can be reached, and what it holds for these windows are numbers that have room.
structure Countable (windows : List Window) (identity : String) (clock now : Nat)
    (backend : Backend) : Prop where
  working : backend.link = .working
  numbers : ∀ window ∈ windows, ∃ before < Numeral.maxWord,
    backend.store.reads clock (window.key identity now) = some before
  room : ∀ window ∈ windows, clock + max (window.left now) 1 * 1000 < Store.endOfTime

theorem countAll_done (hnames : (windows.map (·.name)).Nodup)
    (h : Countable windows identity clock now backend) :
    ∃ counts next, countAll identity clock now windows backend = (.done counts, next) := by
  induction windows generalizing backend with
  | nil => exact ⟨[], backend, rfl⟩
  | cons window rest ih =>
      rw [List.map_cons, List.nodup_cons] at hnames
      obtain ⟨link, store⟩ := backend
      obtain ⟨rfl, hnumbers, hroom⟩ := h
      obtain ⟨⟨before, hmax, hbefore⟩, hnumbersRest⟩ := List.forall_mem_cons.mp hnumbers
      obtain ⟨hroomFirst, hroomRest⟩ := List.forall_mem_cons.mp hroom
      have hreply := Store.increment_done hbefore hmax hroomFirst
      obtain ⟨-, -, -, hframe⟩ := Store.increment_of_done hreply
      -- the other windows have other keys, so their numbers are still there
      have hnext : Countable rest identity clock now
          ⟨.working, (store.increment clock (window.key identity now) (window.left now)).2⟩ := by
        refine ⟨rfl, fun other hmem => ?_, hroomRest⟩
        obtain ⟨n, hn, hread⟩ := hnumbersRest other hmem
        exact ⟨n, hn, (Store.reads_congr (hframe _ (key_ne hnames.1 other hmem))).trans hread⟩
      obtain ⟨counts, last, hlast⟩ := ih hnames.2 hnext
      refine ⟨⟨window, before + 1⟩ :: counts, last, ?_⟩
      simp only [countAll, Backend.increment_working, hreply, hlast]

end Limiter

end RequestGuard
