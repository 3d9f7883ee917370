import RequestGuard.Proofs.Limiter.Interleaving

namespace RequestGuard.Limiter

variable {settings : LimitSettings} {identity : String} {clock now : Nat} {window : Window}
  {flight : Flight}

-- The number that a check got in a window.
def Flight.number (window : Window) (flight : Flight) : Nat :=
  (flight.tickets window).headD 0

-- The checks of an identity have all come to a decision.
def Decided (settings : LimitSettings) (identity : String) (flights : List Flight) : Prop :=
  ∀ flight ∈ own identity flights, (flight.decision? settings).isSome

def HasNumbers (settings : LimitSettings) (flight : Flight) : Prop :=
  ∃ counts, flight.progress = .counting counts [] ∧ counts.map (·.window) = settings.windows

theorem Sound.hasNumbers {flights : List Flight} {store : Store}
    (h : Sound settings identity clock now flights store)
    (hcounted : ∀ flight ∈ flights, WellCounted settings flight)
    (hdecided : Decided settings identity flights) :
    ∀ flight ∈ own identity flights, HasNumbers settings flight := by
  intro flight hflight
  obtain ⟨counts, ahead, hprogress⟩ := h.counting flight hflight
  have hdecision := hdecided flight hflight
  have hwindows := hcounted flight (List.mem_filter.mp hflight).1 _ _ hprogress
  cases ahead with
  | nil => exact ⟨counts, hprogress, by rwa [List.append_nil] at hwindows⟩
  | cons window rest => simp [Flight.decision?, Flight.outcome?, hprogress] at hdecision

theorem HasNumbers.tickets_eq (h : HasNumbers settings flight)
    (hwindow : window ∈ settings.windows) : flight.tickets window = [flight.number window] := by
  obtain ⟨counts, hprogress, hwindows⟩ := h
  have hlength : (flight.tickets window).length = 1 := by
    rw [length_tickets, Flight.counts, hprogress, hwindows]
    exact List.count_eq_one_of_mem (windows_nodup settings) hwindow
  obtain ⟨n, hn⟩ := List.length_eq_one_iff.mp hlength
  rw [Flight.number, hn, List.headD_cons]

theorem mem_tickets {n : Nat} : n ∈ flight.tickets window ↔ ⟨window, n⟩ ∈ flight.counts := by
  simp only [Flight.tickets, List.mem_map, List.mem_filter, decide_eq_true_eq]
  constructor
  · rintro ⟨c, ⟨hmem, rfl⟩, rfl⟩
    exact hmem
  · intro hmem
    exact ⟨_, ⟨hmem, rfl⟩, rfl⟩

-- A check that has all its numbers is allowed if none of them is beyond the limit.
theorem HasNumbers.isAllowed_iff (h : HasNumbers settings flight) :
    flight.isAllowed settings = true ↔
      ∀ window ∈ settings.windows, flight.number window ≤ window.limit := by
  have hnumbers (window : Window) (hwindow : window ∈ settings.windows) (n : Nat) :
      ⟨window, n⟩ ∈ flight.counts ↔ n = flight.number window := by
    rw [← mem_tickets, h.tickets_eq hwindow, List.mem_singleton]
  obtain ⟨counts, hprogress, hwindows⟩ := h
  have hcounts : flight.counts = counts := by simp only [Flight.counts, hprogress]
  have hdecision : flight.decision? settings = some (decision settings flight.now counts) := by
    simp only [Flight.decision?, Flight.outcome?, hprogress]
    rfl
  rw [hcounts] at hnumbers
  constructor
  · intro hallowed window hwindow
    refine Nat.not_lt.mp fun hlimit => ?_
    obtain ⟨name, count, limit, wait, hlimited⟩ := decision_of_exceeded settings
      ((hnumbers window hwindow _).mpr rfl) (decide_eq_true hlimit) flight.now
    simp [Flight.isAllowed, hdecision, hlimited] at hallowed
  · intro hall
    have hwithin : ∀ c ∈ counts, c.isExceeded = false := by
      intro c hc
      have hwindow : c.window ∈ settings.windows := hwindows ▸ List.mem_map_of_mem hc
      have hcount : c.count = flight.number c.window := (hnumbers c.window hwindow _).mp hc
      exact decide_eq_false (Nat.not_lt.mpr (hcount ▸ hall _ hwindow))
    obtain ⟨limit, remaining, hallowed⟩ := decision_of_within settings hwithin flight.now
    simp [Flight.isAllowed, hdecision, hallowed]

section Numbers

variable {flights : List Flight} {store : Store}

theorem tickets_eq_numbers (hnumbers : ∀ flight ∈ own identity flights, HasNumbers settings flight)
    (hwindow : window ∈ settings.windows) :
    tickets identity window flights = (own identity flights).map (·.number window) := by
  rw [tickets, List.map_eq_flatMap]
  exact List.flatMap_congr fun flight hflight => (hnumbers flight hflight).tickets_eq hwindow

theorem Sound.numbers_perm (h : Sound settings identity clock now flights store)
    (hnumbers : ∀ flight ∈ own identity flights, HasNumbers settings flight)
    (hwindow : window ∈ settings.windows) :
    ((own identity flights).map (·.number window)).Perm
      (List.range' 1 (own identity flights).length) := by
  have hperm := h.numbered window hwindow
  rwa [tickets_eq_numbers hnumbers hwindow, List.length_map] at hperm

-- As many checks have a number within the limit as there are such numbers.
theorem Sound.countP_number (h : Sound settings identity clock now flights store)
    (hnumbers : ∀ flight ∈ own identity flights, HasNumbers settings flight)
    (hwindow : window ∈ settings.windows) :
    (own identity flights).countP (·.number window ≤ window.limit) =
      min (own identity flights).length window.limit := by
  have hcount := (h.numbers_perm hnumbers hwindow).countP_eq (· ≤ window.limit)
  rw [countP_range', List.countP_map] at hcount
  exact hcount

theorem Sound.number_le (h : Sound settings identity clock now flights store)
    (hnumbers : ∀ flight ∈ own identity flights, HasNumbers settings flight)
    (hwindow : window ∈ settings.windows) (hflight : flight ∈ own identity flights) :
    flight.number window ≤ (own identity flights).length := by
  have hmem := (h.numbers_perm hnumbers hwindow).subset (List.mem_map_of_mem hflight)
  rw [List.mem_range'_1] at hmem
  omega

end Numbers

-- What a counter is read as.
def countAt (store : Store) (clock : Nat) (key : String) : Nat :=
  ((store.get clock key).1.bind readWord).getD 0

-- However the increments of checks of one identity in the same buckets fall between each other
-- and between those of others, no count is lost and nobody beyond a limit is let through. Only
-- a deadline beyond the end of the clock can keep a check from its decision. Each of them is the
-- check of the limiter, cut where others may come in between.
theorem interleaved_checks_exact (settings : LimitSettings) (identity : String)
    (clock now swept : Nat) (first flights : List Flight) (backend : Backend)
    (hlisted : isListed settings identity = false)
    (hstart : ∀ flight ∈ first, flight = .start settings flight.identity flight.now)
    (halong : ∀ flight ∈ first, Alongside settings identity now flight)
    (hfew : (own identity first).length < 2 ^ 63)
    (hrun : Interleaved clock first ⟨.working, { lastSweep := swept }⟩ flights backend) :
    let n := (own identity first).length
    let admitted := (own identity flights).countP (·.isAllowed settings)
    (∀ flight ∈ first, ∀ origin,
      let (landed, after) := flight.turns clock settings.windows.length origin
      landed.outcome? settings = some (check settings clock flight.now flight.identity origin).1 ∧
        after = (check settings clock flight.now flight.identity origin).2) ∧
    (own identity flights).length = n ∧
    (Reaches settings clock → ∀ flight ∈ own identity flights,
      (flight.outcome? settings).isSome → (flight.decision? settings).isSome) ∧
    (Decided settings identity flights →
      (∀ window ∈ settings.windows, countAt backend.store clock (window.key identity now) = n) ∧
      (∀ window ∈ settings.windows, admitted ≤ window.limit) ∧
      ((∀ window ∈ settings.windows, n ≤ window.limit) →
        ∀ flight ∈ own identity flights, flight.isAllowed settings = true) ∧
      ∀ window, settings.windows = [window] → admitted = min n window.limit) := by
  intro n admitted
  refine ⟨fun flight hflight origin => ?_, ?_⟩
  · rw [hstart flight hflight]
    exact Flight.turns_eq_check settings clock flight.now flight.identity origin
  have hmax : n < Numeral.maxWord := Nat.lt_trans hfew (by decide)
  obtain ⟨heach, hlength, ⟨store, rfl, hsound⟩ | ⟨hroom, broken, hbroken, crash, hprogress⟩⟩ :=
    interleaved_sound hlisted hstart halong hmax hrun
  swap
  · refine ⟨hlength, fun hreaches => absurd hreaches hroom, fun hdecided => ?_⟩
    have hdecision := hdecided broken hbroken
    simp [Flight.decision?, Flight.outcome?, hprogress, Except.toOption] at hdecision
  refine ⟨hlength, fun _ flight hflight houtcome => ?_, fun hdecided => ?_⟩
  · obtain ⟨counts, ahead, hprogress⟩ := hsound.counting flight hflight
    cases ahead with
    | nil => simp [Flight.decision?, Flight.outcome?, hprogress, Except.toOption]
    | cons window rest => simp [Flight.outcome?, hprogress] at houtcome
  have hnumbers := hsound.hasNumbers (fun flight hflight => (heach flight hflight).2) hdecided
  have hwithin (window : Window) (hwindow : window ∈ settings.windows) :
      (own identity flights).countP (·.number window ≤ window.limit) = min n window.limit := by
    rw [hsound.countP_number hnumbers hwindow, hlength]
  refine ⟨fun window hwindow => ?_, fun window hwindow => ?_, fun hall flight hflight => ?_,
    fun window hone => ?_⟩
  · obtain ⟨deadline, hfresh, hfind⟩ := hsound.held window hwindow
    rw [tickets_eq_numbers hnumbers hwindow, List.length_map, hlength] at hfind
    exact Store.get_tallied hfind hfresh (Nat.le_of_lt hmax)
  · calc
      admitted ≤ (own identity flights).countP (·.number window ≤ window.limit) := by
        refine List.countP_mono_left fun flight hflight hallowed => decide_eq_true ?_
        exact (hnumbers flight hflight).isAllowed_iff.mp hallowed window hwindow
      _ = min n window.limit := hwithin window hwindow
      _ ≤ window.limit := Nat.min_le_right _ _
  · rw [(hnumbers flight hflight).isAllowed_iff]
    intro window hwindow
    have hle := hsound.number_le hnumbers hwindow hflight
    rw [hlength] at hle
    exact Nat.le_trans hle (hall window hwindow)
  · rw [← hwithin window (hone ▸ List.mem_singleton_self window)]
    refine List.countP_congr fun flight hflight => ?_
    rw [(hnumbers flight hflight).isAllowed_iff, hone]
    simp

def overtakingSettings : LimitSettings := { requests := 1, hourly := some 1, daily := none }

def overtakingChecks : List Flight :=
  [.start overtakingSettings "a" 5, .start overtakingSettings "b" 6,
    .start overtakingSettings "a" 7]

-- Two checks that overtake each other: each is beyond one of the limits, and no count is lost.
theorem interleaved_checks_exact_overtaking :
    let run := scheduled 0 overtakingChecks {} [2, 0, 1, 0, 2]
    Decided overtakingSettings "a" run.1 ∧
      (∀ window ∈ overtakingSettings.windows,
        countAt run.2.store 0 (window.key "a" 5) = 2) ∧
      (own "a" run.1).countP (·.isAllowed overtakingSettings) ≤ 1 := by
  have hdecided :
      Decided overtakingSettings "a" (scheduled 0 overtakingChecks {} [2, 0, 1, 0, 2]).1 := by
    unfold Decided
    decide +kernel
  have halong : ∀ flight ∈ overtakingChecks, Alongside overtakingSettings "a" 5 flight := by
    have hbuckets : ∀ flight ∈ overtakingChecks, ∀ window ∈ overtakingSettings.windows,
        window.bucket flight.now = window.bucket 5 := by decide
    have hkeys : ∀ flight ∈ overtakingChecks, flight.identity ≠ "a" →
        ∀ window ∈ overtakingSettings.windows, ∀ other ∈ overtakingSettings.windows,
          other.key flight.identity flight.now ≠ window.key "a" 5 := by decide +kernel
    exact fun flight hflight => ⟨fun _ => hbuckets flight hflight, hkeys flight hflight⟩
  obtain ⟨-, -, -, hexact⟩ := interleaved_checks_exact overtakingSettings "a" 0 5 0 overtakingChecks
    _ _ (by decide) (by simp [overtakingChecks, Flight.start]) halong (by decide)
    (Interleaved.nothing.scheduled [2, 0, 1, 0, 2])
  obtain ⟨hcounts, hlimits, -⟩ := hexact hdecided
  exact ⟨hdecided, hcounts, hlimits overtakingSettings.primary overtakingSettings.primary_mem⟩

end RequestGuard.Limiter
