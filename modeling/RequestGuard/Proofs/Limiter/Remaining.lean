import RequestGuard.Proofs.Limiter.Charging
import RequestGuard.Proofs.Limiter.Framing
import RequestGuard.Proofs.Limiter.OnePass
import Mathlib.Algebra.Group.Nat.Defs
import Mathlib.Logic.Function.Iterate

namespace RequestGuard

namespace Store

variable {store : Store} {now : Nat} {key : String} {ttl count : Nat}

-- An increment answers with one more than it reads. Only the first one needs room for a deadline.
theorem increment_eq_done_iff : (store.increment now key ttl).1 = .done count ↔
    ∃ before < Numeral.maxWord, store.reads now key = some before ∧
      (before = 0 → now + max ttl 1 * 1000 < endOfTime) ∧ count = before + 1 := by
  constructor
  · intro h
    obtain ⟨before, hread, -⟩ := increment_of_done h
    by_cases hmax : Numeral.maxWord ≤ before
    · rw [(increment_greatest store now key ttl hmax hread).1] at h
      contradiction
    refine ⟨before, Nat.lt_of_not_le hmax, hread, ?_⟩
    cases before with
    | zero =>
        by_cases hroom : now + max ttl 1 * 1000 < endOfTime
        · rw [(increment_first store now key ttl hread hroom).1] at h
          cases h
          exact ⟨fun _ => hroom, rfl⟩
        · rw [increment_overflow store now key ttl hread hroom] at h
          contradiction
    | succ n =>
        rw [(increment_later store now key ttl n.succ_pos (Nat.lt_of_not_le hmax) hread).1] at h
        cases h
        exact ⟨fun hzero => absurd hzero n.succ_ne_zero, rfl⟩
  · rintro ⟨before, hmax, hread, hroom, rfl⟩
    cases before with
    | zero => exact (increment_first store now key ttl hread (hroom rfl)).1
    | succ n => exact (increment_later store now key ttl n.succ_pos hmax hread).1

end Store

namespace Limiter

variable {settings : LimitSettings} {identity : String} {clock now : Nat} {windows : List Window}
  {store : Store} {count : Window → Nat} {window other : Window}

-- The windows have keys of their own, so each of them counts as if it were the only one.
theorem countAll_eq_done_iff (hnames : (windows.map (·.name)).Nodup) :
    (countAll identity clock now windows ⟨.working, store⟩).1 =
        .done (windows.map fun window => ⟨window, count window⟩) ↔
      ∀ window ∈ windows,
        (store.increment clock (window.key identity now) (window.left now)).1 =
          .done (count window) := by
  induction windows generalizing store with
  | nil => simp [countAll]
  | cons window rest ih =>
      rw [List.map_cons, List.nodup_cons] at hnames
      have hothers : ∀ other ∈ rest,
          ((store.increment clock (window.key identity now) (window.left now)).2.increment clock
              (other.key identity now) (other.left now)).1 =
            (store.increment clock (other.key identity now) (other.left now)).1 :=
        fun other hmem => (Store.increment_congr (Store.live_increment_of_ne
          (key_ne hnames.1 other hmem) _ (Nat.le_refl clock)) _).1
      have hrest := (@ih (store.increment clock (window.key identity now) (window.left now)).2
        hnames.2).trans (forall₂_congr fun other hmem => by rw [hothers other hmem])
      rw [countAll, Backend.increment_working, List.forall_mem_cons, List.map_cons, ← hrest]
      cases (store.increment clock (window.key identity now) (window.left now)).1 with
      | failed error => simp
      | broken crash => simp
      | done first =>
          dsimp only
          cases countAll identity clock now rest ⟨.working,
              (store.increment clock (window.key identity now) (window.left now)).2⟩ with
          | mk others last =>
              cases others with
              | failed error => simp
              | broken crash => simp
              | done more => simp

-- The increments of a check all answer, each with the count of its window.
def Counts (settings : LimitSettings) (identity : String) (clock now : Nat) (store : Store)
    (count : Window → Nat) : Prop :=
  (countAll identity clock now settings.windows ⟨.working, store⟩).1 =
    .done (settings.windows.map fun window => ⟨window, count window⟩)

-- A check of somebody who is not listed decides by the counts, and leaves each of them one higher
-- for the next.
theorem Counts.check (h : Counts settings identity clock now store count)
    (hlisted : isListed settings identity = false) :
    ∃ next, Limiter.check settings clock now identity ⟨.working, store⟩ =
        (.ok (decision settings now (settings.windows.map fun window => ⟨window, count window⟩)),
          ⟨.working, next⟩) ∧
      ((∀ window ∈ settings.windows, count window < Numeral.maxWord) →
        Counts settings identity clock now next (count · + 1)) := by
  obtain ⟨hblack, hwhite⟩ := Bool.or_eq_false_iff.mp hlisted
  have hworking : ∃ next, (countAll identity clock now settings.windows ⟨.working, store⟩).2 =
      ⟨.working, next⟩ ∧ True := countAll_keeps (fun _ _ _ _ => trivial) trivial
  obtain ⟨next, hnext, -⟩ := hworking
  have hall : countAll identity clock now settings.windows ⟨.working, store⟩ =
      (.done (settings.windows.map fun window => ⟨window, count window⟩), ⟨.working, next⟩) :=
    Prod.ext h hnext
  refine ⟨next, ?_, fun hmax => ?_⟩
  · simp [Limiter.check, hblack, hwhite, hall]
  · have hreplies := (countAll_eq_done_iff settings.names_nodup).mp h
    obtain ⟨honce, -⟩ := countAll_of_done settings.names_nodup hall
    refine (countAll_eq_done_iff settings.names_nodup).mpr fun window hwindow => ?_
    obtain ⟨before, -, hread, -, hcount⟩ := Store.increment_eq_done_iff.mp (hreplies window hwindow)
    obtain ⟨also, halso, hafter⟩ := honce window hwindow
    obtain rfl : before = also := Option.some.inj (hread.symm.trans halso)
    rw [← hcount] at hafter
    exact Store.increment_eq_done_iff.mpr ⟨count window, hmax window hwindow, hafter,
      fun hzero => absurd (hcount.symm.trans hzero) (Nat.succ_ne_zero before), rfl⟩

-- What so many checks in a row leave behind, while both clocks stand still.
def checked (settings : LimitSettings) (clock now : Nat) (identity : String) (n : Nat) :
    Backend → Backend :=
  (fun backend => (check settings clock now identity backend).2)^[n]

-- By induction on the checks: after each of them, the counts are one higher.
theorem Counts.checked (h : Counts settings identity clock now store count)
    (hlisted : isListed settings identity = false) (n : Nat)
    (hmax : ∀ window ∈ settings.windows, count window + n ≤ Numeral.maxWord) :
    ∃ next, checked settings clock now identity n ⟨.working, store⟩ = ⟨.working, next⟩ ∧
      Counts settings identity clock now next (count · + n) := by
  induction n with
  | zero => exact ⟨store, rfl, h⟩
  | succ n ih =>
      obtain ⟨middle, hmiddle, hcounts⟩ :=
        ih fun window hwindow => Nat.le_of_succ_le (hmax window hwindow)
      obtain ⟨next, hcheck, hnext⟩ := hcounts.check hlisted
      refine ⟨next, ?_, hnext hmax⟩
      rw [Limiter.checked, Function.iterate_succ_apply']
      rw [Limiter.checked] at hmiddle
      rw [hmiddle, hcheck]

-- Over a limit, a check is limited by the first of the exceeded windows that last longest, and the
-- wait is the least that takes all of them to other buckets.
theorem Counts.limited (h : Counts settings identity clock now store count)
    (hlisted : isListed settings identity = false)
    (hexceeded : ∃ window ∈ settings.windows, window.limit < count window) :
    ∃ window, Longest settings.windows count now window ∧
      (Limiter.check settings clock now identity ⟨.working, store⟩).1 =
        .ok (.limited window.name (count window) window.limit (window.left now)) ∧
      1 ≤ window.left now ∧ window.left now ≤ window.seconds ∧
      IsLeast {wait | ∀ other ∈ settings.windows, other.limit < count other →
        other.bucket now < other.bucket (now + wait)} (window.left now) := by
  obtain ⟨next, hcheck, -⟩ := h.check hlisted
  obtain ⟨window, hlongest, hdecision⟩ := decision_eq_limited hexceeded settings now
  refine ⟨window, hlongest, ?_, Window.left_pos (LimitSettings.seconds_pos hlongest.mem) now,
    window.left_le now, hlongest.isLeast fun _ => LimitSettings.seconds_pos⟩
  rw [hcheck, hdecision]

theorem Counts.allowed (h : Counts settings identity clock now store count)
    (hlisted : isListed settings identity = false)
    (hwithin : ∀ window ∈ settings.windows, count window ≤ window.limit) :
    ∃ window, Tightest settings.windows count window ∧
      (Limiter.check settings clock now identity ⟨.working, store⟩).1 =
        .ok (.allowed window.limit (window.limit - count window)) := by
  obtain ⟨next, hcheck, -⟩ := h.check hlisted
  obtain ⟨window, htightest, hdecision⟩ :=
    decision_eq_allowed hwithin (List.cons_ne_nil _ _) settings now
  refine ⟨window, htightest, ?_⟩
  rw [hcheck, hdecision]

-- Within all limits, a check is allowed with the room of the tightest window, and with every
-- further check that room gets one less until it is used up.
theorem Counts.countdown (h : Counts settings identity clock now store count)
    (hlisted : isListed settings identity = false)
    (hlimits : ∀ window ∈ settings.windows, window.limit < Numeral.maxWord)
    (hwithin : ∀ window ∈ settings.windows, count window ≤ window.limit)
    (htightest : Tightest settings.windows count window) :
    (∀ n ≤ window.limit - count window,
      (Limiter.check settings clock now identity
          (Limiter.checked settings clock now identity n ⟨.working, store⟩)).1 =
        .ok (.allowed window.limit (window.limit - count window - n))) ∧
      ∃ name count' limit wait,
        (Limiter.check settings clock now identity
            (Limiter.checked settings clock now identity (window.limit - count window + 1)
              ⟨.working, store⟩)).1 =
          .ok (.limited name count' limit wait) := by
  have hroom : ∀ other ∈ settings.windows,
      count other + (window.limit - count window) ≤ other.limit := fun other hmem => by
    have hle := htightest.room_le hmem
    have hother := hwithin other hmem
    omega
  have hmax : ∀ n ≤ window.limit - count window + 1, ∀ other ∈ settings.windows,
      count other + n ≤ Numeral.maxWord := fun n hn other hmem => by
    have hle := hroom other hmem
    have hlimit := hlimits other hmem
    omega
  constructor
  · intro n hn
    obtain ⟨next, hnext, hcounts⟩ := h.checked hlisted n (hmax n (Nat.le_succ_of_le hn))
    obtain ⟨other, hother, hcheck⟩ := hcounts.allowed hlisted fun other hmem =>
      Nat.le_trans (Nat.add_le_add_left hn _) (hroom other hmem)
    obtain rfl := hother.unique (htightest.add hn)
    rw [hnext, hcheck, Nat.sub_sub]
  · obtain ⟨next, hnext, hcounts⟩ := h.checked hlisted _ (hmax _ (Nat.le_refl _))
    have hlast := hwithin window htightest.mem
    obtain ⟨last, -, hcheck, -⟩ := hcounts.limited hlisted
      ⟨window, htightest.mem, by omega⟩
    exact ⟨_, _, _, _, by rw [hnext, hcheck]⟩

-- A check tells the right window and the right wait, or the room that is really left: it and as
-- many checks after it are let through, and the next one is not. None of its subtractions and
-- divisions can fail.
theorem decision_exact (settings : LimitSettings) :
    (∀ clock now identity backend, check? settings clock now identity backend =
      some (check settings clock now identity backend)) ∧
    ∀ identity clock now store count, isListed settings identity = false →
      (∀ window ∈ settings.windows, window.limit < 2 ^ 63) →
      Counts settings identity clock now store count →
      ((∃ window ∈ settings.windows, window.limit < count window) →
        ∃ window, Longest settings.windows count now window ∧
          (check settings clock now identity ⟨.working, store⟩).1 =
            .ok (.limited window.name (count window) window.limit (window.left now)) ∧
          1 ≤ window.left now ∧ window.left now ≤ window.seconds ∧
          IsLeast {wait | ∀ other ∈ settings.windows, other.limit < count other →
            other.bucket now < other.bucket (now + wait)} (window.left now)) ∧
      ((∀ window ∈ settings.windows, count window ≤ window.limit) →
        ∃ window, Tightest settings.windows count window ∧
          (∀ n ≤ window.limit - count window,
            (check settings clock now identity
                (checked settings clock now identity n ⟨.working, store⟩)).1 =
              .ok (.allowed window.limit (window.limit - count window - n))) ∧
          ∃ name count' limit wait,
            (check settings clock now identity
                (checked settings clock now identity (window.limit - count window + 1)
                  ⟨.working, store⟩)).1 =
              .ok (.limited name count' limit wait)) := by
  refine ⟨check?_eq settings, fun identity clock now store count hlisted hlimits hcounts =>
    ⟨hcounts.limited hlisted, fun hwithin => ?_⟩⟩
  obtain ⟨window, htightest, -⟩ := hcounts.allowed hlisted hwithin
  exact ⟨window, htightest, hcounts.countdown hlisted
    (fun other hmem => Nat.lt_trans (hlimits other hmem) (by decide)) hwithin htightest⟩

def threeWindows : LimitSettings :=
  { requests := 2, windowSeconds := 60, hourly := some 2, daily := some 5 }

-- Of three checks, the first two find two windows equally tight, and the third is beyond both.
theorem decision_exact_three_windows :
    Counts threeWindows "user:a" 0 7300 {} (fun _ => 1) ∧
    (∃ window, Tightest threeWindows.windows (fun _ => 1) window ∧ window.limit - 1 = 1 ∧
      ∀ n ≤ 1, (check threeWindows 0 7300 "user:a" (checked threeWindows 0 7300 "user:a" n {})).1 =
        .ok (.allowed window.limit (1 - n))) ∧
    ∃ store, checked threeWindows 0 7300 "user:a" 2 {} = ⟨.working, store⟩ ∧
      Counts threeWindows "user:a" 0 7300 store (fun _ => 3) ∧
      (check threeWindows 0 7300 "user:a" ⟨.working, store⟩).1 = .ok (.limited .hour 3 2 3500) ∧
      IsLeast {wait | ∀ other ∈ threeWindows.windows, other.limit < 3 →
        other.bucket 7300 < other.bucket (7300 + wait)} 3500 := by
  have hfirst : Counts threeWindows "user:a" 0 7300 {} (fun _ => 1) := by
    have hreads : ∀ window ∈ threeWindows.windows,
        ({} : Store).reads 0 (window.key "user:a" 7300) = some 0 ∧
          0 + max (window.left 7300) 1 * 1000 < Store.endOfTime := by
      decide +kernel
    refine (countAll_eq_done_iff threeWindows.names_nodup).mpr fun window hwindow => ?_
    obtain ⟨hread, hroom⟩ := hreads window hwindow
    exact Store.increment_eq_done_iff.mpr ⟨0, by decide, hread, fun _ => hroom, rfl⟩
  obtain ⟨store, hstore, hthird⟩ := hfirst.checked (by decide) 2 (by decide)
  have hlimits : ∀ window ∈ threeWindows.windows, window.limit < 2 ^ 63 := by decide
  obtain ⟨-, hexact⟩ := decision_exact threeWindows
  obtain ⟨-, hallowed⟩ := hexact "user:a" 0 7300 {} _ (by decide) hlimits hfirst
  obtain ⟨hlimited, -⟩ := hexact "user:a" 0 7300 store _ (by decide) hlimits hthird
  obtain ⟨tightest, htightest, hcountdown, -⟩ := hallowed (by decide)
  obtain ⟨longest, hlongest, hdecision, -, -, hleast⟩ := hlimited (by decide)
  have hone : tightest.limit - 1 = 1 := by
    have hprimary := htightest.room_le threeWindows.primary_mem
    have hall : ∀ window ∈ threeWindows.windows, 2 ≤ window.limit := by decide
    have hlimit := hall tightest htightest.mem
    exact Nat.le_antisymm hprimary (Nat.sub_le_sub_right hlimit 1)
  rw [hone] at hcountdown
  have hhour : longest = ⟨.hour, 2, 3600⟩ := by
    have hmem : (⟨.hour, 2, 3600⟩ : Window) ∈ threeWindows.windows := by decide
    have hall : ∀ window ∈ threeWindows.windows, window.limit < 3 →
        3500 ≤ window.left 7300 → window = ⟨.hour, 2, 3600⟩ := by decide
    exact hall longest hlongest.mem hlongest.exceeded (hlongest.left_le hmem (by decide))
  subst hhour
  exact ⟨hfirst, ⟨tightest, htightest, hone, hcountdown⟩, store, hstore, hthird, hdecision,
    hleast⟩

end Limiter

end RequestGuard
