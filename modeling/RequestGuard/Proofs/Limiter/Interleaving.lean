import RequestGuard.Proofs.Limiter.Admission
import RequestGuard.Proofs.Limiter.Flight

namespace RequestGuard.Limiter

open Store (tallied)

-- All that can become of some checks while the clock of the store stands still: one after the
-- other takes a turn, in whatever order.
inductive Interleaved (clock : Nat) (first : List Flight) (origin : Backend) :
    List Flight → Backend → Prop
  | nothing : Interleaved clock first origin first origin
  | turn (earlier : List Flight) (flight : Flight) (later : List Flight) (backend : Backend) :
      Interleaved clock first origin (earlier ++ flight :: later) backend →
      Interleaved clock first origin (earlier ++ (flight.turn clock backend).1 :: later)
        (flight.turn clock backend).2

-- The checks take their turns as an order of their places tells.
def scheduled (clock : Nat) (flights : List Flight) (backend : Backend) :
    List Nat → List Flight × Backend
  | [] => (flights, backend)
  | place :: order =>
    match flights[place]? with
    | some flight =>
      let (turned, next) := flight.turn clock backend
      scheduled clock (flights.set place turned) next order
    | none => scheduled clock flights backend order

theorem Interleaved.scheduled {clock : Nat} {first flights : List Flight}
    {origin backend : Backend} (h : Interleaved clock first origin flights backend)
    (order : List Nat) :
    Interleaved clock first origin (scheduled clock flights backend order).1
      (scheduled clock flights backend order).2 := by
  induction order generalizing flights backend with
  | nil => exact h
  | cons place order ih =>
      simp only [Limiter.scheduled]
      split
      · next flight hflight =>
          obtain ⟨hplace, rfl⟩ := List.getElem?_eq_some_iff.mp hflight
          refine ih ?_
          rw [List.set_eq_take_append_cons_drop, if_pos hplace]
          refine Interleaved.turn (flights.take place) flights[place] _ backend ?_
          rwa [← List.drop_eq_getElem_cons hplace, List.take_append_drop]
      · exact ih h

-- A check of the identity falls in the same buckets as the others of the identity; any other
-- check uses other keys.
structure Alongside (settings : LimitSettings) (identity : String) (now : Nat) (flight : Flight) :
    Prop where
  same : flight.identity = identity →
    ∀ window ∈ settings.windows, window.bucket flight.now = window.bucket now
  apart : flight.identity ≠ identity → ∀ window ∈ settings.windows, ∀ other ∈ settings.windows,
    other.key flight.identity flight.now ≠ window.key identity now

-- The windows that a check has been counted in and those ahead of it are all windows in order.
def WellCounted (settings : LimitSettings) (flight : Flight) : Prop :=
  ∀ counts ahead, flight.progress = .counting counts ahead →
    counts.map (·.window) ++ ahead = settings.windows

namespace Flight

def counts (flight : Flight) : List Counted :=
  match flight.progress with
  | .counting counts _ => counts
  | .stopped _ => []

-- The numbers that a check got in a window: none as long as the window is ahead of it.
def tickets (window : Window) (flight : Flight) : List Nat :=
  (flight.counts.filter (·.window = window)).map (·.count)

end Flight

def own (identity : String) (flights : List Flight) : List Flight :=
  flights.filter (·.identity = identity)

def tickets (identity : String) (window : Window) (flights : List Flight) : List Nat :=
  (own identity flights).flatMap (·.tickets window)

variable {settings : LimitSettings} {identity : String} {clock now : Nat} {window : Window}
  {earlier later : List Flight} {flight : Flight}

theorem own_of_eq (h : flight.identity = identity) :
    own identity (earlier ++ flight :: later) =
      own identity earlier ++ flight :: own identity later := by
  simp [own, List.filter_append, h]

theorem own_of_ne (h : flight.identity ≠ identity) :
    own identity (earlier ++ flight :: later) = own identity (earlier ++ later) := by
  simp [own, List.filter_append, h]

theorem tickets_of_eq (h : flight.identity = identity) (window : Window) :
    tickets identity window (earlier ++ flight :: later) =
      tickets identity window earlier ++ (flight.tickets window ++
        tickets identity window later) := by
  simp [tickets, own_of_eq h, List.flatMap_append]

theorem tickets_of_ne (h : flight.identity ≠ identity) (window : Window) :
    tickets identity window (earlier ++ flight :: later) =
      tickets identity window (earlier ++ later) := by
  rw [tickets, own_of_ne h, tickets]

theorem length_own_turn (backend : Backend) :
    (own identity (earlier ++ (flight.turn clock backend).1 :: later)).length =
      (own identity (earlier ++ flight :: later)).length := by
  by_cases h : flight.identity = identity
  · rw [own_of_eq (Flight.identity_turn.trans h), own_of_eq h]
    simp
  · rw [own_of_ne (Flight.identity_turn.trans_ne h), own_of_ne h]

-- No check gets more than one number in a window.

theorem windows_nodup (settings : LimitSettings) : settings.windows.Nodup :=
  settings.names_nodup.of_map _

theorem length_tickets (window : Window) (flight : Flight) :
    (flight.tickets window).length = (flight.counts.map (·.window)).count window := by
  rw [Flight.tickets, List.length_map, List.count, List.countP_map, List.countP_eq_length_filter]
  rfl

theorem WellCounted.length_tickets_le (h : WellCounted settings flight) (window : Window) :
    (flight.tickets window).length ≤ 1 := by
  rw [length_tickets, Flight.counts]
  split
  · next counts ahead hprogress =>
      have hsub : (counts.map (·.window)).Sublist settings.windows :=
        h _ _ hprogress ▸ List.sublist_append_left _ _
      exact Nat.le_trans (hsub.count_le window)
        (List.nodup_iff_count_le_one.mp (windows_nodup settings) _)
  · simp

theorem length_tickets_le (identity : String) {flights : List Flight}
    (h : ∀ flight ∈ flights, WellCounted settings flight) (window : Window) :
    (tickets identity window flights).length ≤ (own identity flights).length := by
  have hown : ∀ flight ∈ own identity flights, (flight.tickets window).length ≤ 1 :=
    fun flight hflight => (h flight (List.mem_filter.mp hflight).1).length_tickets_le window
  unfold tickets
  generalize own identity flights = flights at hown
  induction flights with
  | nil => simp
  | cons flight rest ih =>
      obtain ⟨hflight, hrest⟩ := List.forall_mem_cons.mp hown
      have hlength := ih hrest
      rw [List.flatMap_cons, List.length_append, List.length_cons]
      omega

theorem WellCounted.start {now : Nat} :
    WellCounted settings (.start settings identity now) := by
  intro counts ahead hprogress
  simp only [Flight.start] at hprogress
  split at hprogress
  · contradiction
  · split at hprogress
    · contradiction
    · cases hprogress
      rfl

-- A turn keeps what is said of each check.

theorem Alongside.turn (h : Alongside settings identity now flight) (backend : Backend) :
    Alongside settings identity now (flight.turn clock backend).1 := by
  constructor
  · rw [Flight.identity_turn, Flight.now_turn]
    exact h.same
  · rw [Flight.identity_turn, Flight.now_turn]
    exact h.apart

theorem WellCounted.turn (h : WellCounted settings flight) (backend : Backend) :
    WellCounted settings (flight.turn clock backend).1 := by
  obtain ⟨counts, window, ahead, hprogress⟩ | hturn := flight.turn_cases clock backend
  · have hwindows := h _ _ hprogress
    rw [Flight.turn_of_counting hprogress]
    cases (backend.increment clock (window.key flight.identity flight.now)
      (window.left flight.now)).1 with
    | done count =>
        rintro _ _ ⟨⟩
        simpa using hwindows
    | failed error => nofun
    | broken crash => nofun
  · rwa [hturn]

-- The numbers given out in a window are the first ones, each of them once, and the store holds
-- how many they are.
structure Sound (settings : LimitSettings) (identity : String) (clock now : Nat)
    (flights : List Flight) (store : Store) : Prop where
  counting : ∀ flight ∈ own identity flights, ∃ counts ahead,
    flight.progress = .counting counts ahead
  held : ∀ window ∈ settings.windows, ∃ deadline, clock < deadline ∧
    store.find? (window.key identity now) =
      tallied (tickets identity window flights).length deadline
  numbered : ∀ window ∈ settings.windows, (tickets identity window flights).Perm
    (List.range' 1 (tickets identity window flights).length)

-- A check of the identity broke off, as a deadline lies beyond the end of the clock.
def BrokenOff (settings : LimitSettings) (identity : String) (clock : Nat)
    (flights : List Flight) : Prop :=
  ¬Reaches settings clock ∧ ∃ flight ∈ own identity flights, ∃ crash,
    flight.progress = .stopped (.error crash)

theorem tickets_start (window : Window) (identity : String) (now : Nat) :
    (Flight.start settings identity now).tickets window = [] := by
  have hcounts : (Flight.start settings identity now).counts = [] := by
    cases hblack : settings.isBlacklisted identity <;>
      cases hwhite : settings.isWhitelisted identity <;>
        simp [Flight.counts, Flight.start, hblack, hwhite]
  simp [Flight.tickets, hcounts]

theorem Sound.start {first : List Flight} {swept : Nat}
    (hlisted : isListed settings identity = false)
    (hstart : ∀ flight ∈ first, flight = .start settings flight.identity flight.now) :
    Sound settings identity clock now first { lastSweep := swept } := by
  have hnone (window : Window) : tickets identity window first = [] := by
    refine List.flatMap_eq_nil_iff.mpr fun flight hflight => ?_
    rw [hstart flight (List.mem_filter.mp hflight).1, tickets_start]
  refine ⟨?_, fun window _ => ⟨clock + 1, Nat.lt_succ_self clock, ?_⟩, fun window _ => ?_⟩
  · intro flight hflight
    obtain ⟨hmem, hidentity⟩ := List.mem_filter.mp hflight
    obtain ⟨hblack, hwhite⟩ := Bool.or_eq_false_iff.mp hlisted
    rw [hstart flight hmem, of_decide_eq_true hidentity]
    exact ⟨[], settings.windows, by simp [Flight.start, hblack, hwhite]⟩
  · rw [hnone]
    rfl
  · rw [hnone]
    exact List.Perm.nil

-- A turn of a check that uses other keys.
theorem Sound.turn_other {store : Store}
    (h : Sound settings identity clock now (earlier ++ flight :: later) store)
    (hidentity : flight.identity ≠ identity) (halong : Alongside settings identity now flight)
    (hcounted : WellCounted settings flight) :
    ∃ next, (flight.turn clock ⟨.working, store⟩).2 = ⟨.working, next⟩ ∧
      Sound settings identity clock now
        (earlier ++ (flight.turn clock ⟨.working, store⟩).1 :: later) next := by
  have hturned : (flight.turn clock ⟨.working, store⟩).1.identity ≠ identity :=
    Flight.identity_turn.trans_ne hidentity
  obtain ⟨counting, held, numbered⟩ := h
  simp only [own_of_ne hidentity, tickets_of_ne hidentity] at counting held numbered
  obtain ⟨counts, other, ahead, hprogress⟩ | hturn := flight.turn_cases clock ⟨.working, store⟩
  · have hother : other ∈ settings.windows := by
      rw [← hcounted _ _ hprogress]
      exact List.mem_append_right _ List.mem_cons_self
    refine ⟨_, by rw [Flight.turn_of_counting hprogress, Backend.increment_working], ?_⟩
    refine ⟨?_, fun window hwindow => ?_, ?_⟩
    · rwa [own_of_ne hturned]
    · obtain ⟨deadline, hfresh, hfind⟩ := held window hwindow
      refine ⟨deadline, hfresh, ?_⟩
      rw [tickets_of_ne hturned, Store.find?_increment
        (halong.apart hidentity window hwindow other hother).symm _
        (Store.live_of_tallied hfind hfresh), hfind]
    · simpa only [tickets_of_ne hturned] using numbered
  · rw [hturn]
    exact ⟨store, rfl, by rwa [own_of_ne hidentity], by simpa only [tickets_of_ne hidentity],
      by simpa only [tickets_of_ne hidentity]⟩

theorem tickets_replied {counts : List Counted} {ahead : List Window}
    (earlier later : List Flight)
    (hidentity : flight.identity = identity)
    (hprogress : flight.progress = .counting counts (window :: ahead)) (n : Nat) (other : Window) :
    (tickets identity other (earlier ++ flight.replied counts window ahead (.done n) :: later)).Perm
      (tickets identity other (earlier ++ flight :: later) ++
        if other = window then [n] else []) := by
  have hflight : (flight.replied counts window ahead (.done n)).tickets other =
      flight.tickets other ++ if other = window then [n] else [] := by
    simp only [Flight.tickets, Flight.counts, Flight.replied, hprogress, List.filter_append,
      List.map_append]
    by_cases h : other = window
    · simp [h]
    · simp [h, Ne.symm h]
  rw [tickets_of_eq hidentity, tickets_of_eq ((Flight.identity_replied _).trans hidentity), hflight,
    List.append_assoc, List.append_assoc, List.append_assoc]
  exact (List.perm_append_comm.append_left _).append_left _

theorem range'_one_succ (n : Nat) : List.range' 1 (n + 1) = List.range' 1 n ++ [n + 1] := by
  rw [List.range'_1_concat, Nat.add_comm 1 n]

theorem countP_range' (n limit : Nat) :
    (List.range' 1 n).countP (· ≤ limit) = min n limit := by
  induction n with
  | zero => simp
  | succ n ih =>
      rw [range'_one_succ, List.countP_append, ih, List.countP_singleton]
      by_cases h : n + 1 ≤ limit
      · simp only [h, decide_true, if_true]
        omega
      · simp only [h, decide_false, Bool.false_eq_true, if_false]
        omega

-- A check of the identity that gets the next number of a window keeps the numbers sound.
theorem Sound.counted {store next : Store} {counts : List Counted} {ahead : List Window}
    {number fresh : Nat}
    (h : Sound settings identity clock now (earlier ++ flight :: later) store)
    (hidentity : flight.identity = identity)
    (hprogress : flight.progress = .counting counts (window :: ahead))
    (hnumber : number = (tickets identity window (earlier ++ flight :: later)).length)
    (hfresh : clock < fresh)
    (hwindow : next.find? (window.key identity now) = tallied (number + 1) fresh)
    (hothers : ∀ other ∈ settings.windows, other ≠ window →
      next.find? (other.key identity now) = store.find? (other.key identity now)) :
    Sound settings identity clock now
      (earlier ++ flight.replied counts window ahead (.done (number + 1)) :: later) next := by
  have hreplied : (flight.replied counts window ahead (.done (number + 1))).identity = identity :=
    (Flight.identity_replied _).trans hidentity
  have htickets := tickets_replied earlier later hidentity hprogress (number + 1)
  constructor
  · intro other hother
    rw [own_of_eq hreplied, List.mem_append, List.mem_cons] at hother
    rcases hother with hearlier | rfl | hlater
    · exact h.counting other (by simp [own_of_eq hidentity, hearlier])
    · exact ⟨_, _, rfl⟩
    · exact h.counting other (by simp [own_of_eq hidentity, hlater])
  · intro other hother
    rw [(htickets other).length_eq, List.length_append]
    by_cases heq : other = window
    · subst heq
      exact ⟨fresh, hfresh, by simpa [hnumber] using hwindow⟩
    · obtain ⟨deadline, hdeadline, hfind⟩ := h.held other hother
      exact ⟨deadline, hdeadline, by simpa [heq, hothers other hother heq] using hfind⟩
  · intro other hother
    rw [(htickets other).length_eq, List.length_append]
    refine (htickets other).trans ?_
    by_cases heq : other = window
    · subst heq
      rw [if_pos rfl, List.length_singleton, range'_one_succ, hnumber]
      exact (h.numbered other hother).append_right _
    · simpa [heq] using h.numbered other hother

-- A turn of a check of the identity takes the next number of the window.
theorem Sound.turn_own {store : Store}
    (h : Sound settings identity clock now (earlier ++ flight :: later) store)
    (hidentity : flight.identity = identity) (halong : Alongside settings identity now flight)
    (hcounted : WellCounted settings flight)
    (hfew : ∀ window ∈ settings.windows,
      (tickets identity window (earlier ++ flight :: later)).length < Numeral.maxWord) :
    (∃ next, (flight.turn clock ⟨.working, store⟩).2 = ⟨.working, next⟩ ∧
      Sound settings identity clock now
        (earlier ++ (flight.turn clock ⟨.working, store⟩).1 :: later) next) ∨
      BrokenOff settings identity clock
        (earlier ++ (flight.turn clock ⟨.working, store⟩).1 :: later) := by
  obtain ⟨counts, window, ahead, hprogress⟩ | hturn := flight.turn_cases clock ⟨.working, store⟩
  · have hwindow : window ∈ settings.windows := by
      rw [← hcounted _ _ hprogress]
      exact List.mem_append_right _ List.mem_cons_self
    have hkey : window.key flight.identity flight.now = window.key identity now := by
      rw [hidentity, Window.key, Window.key, halong.same hidentity window hwindow]
    obtain ⟨deadline, hfresh, hfind⟩ := h.held window hwindow
    rw [Flight.turn_of_counting hprogress, Backend.increment_working, hkey]
    rcases Store.increment_tallied_or_overflow hfind hfresh (hfew window hwindow)
      (window.left flight.now) with ⟨fresh, hlater, hreply, hnext⟩ | ⟨hroom, hreply⟩
    · rw [hreply]
      refine .inl ⟨_, rfl, h.counted hidentity hprogress rfl hlater hnext ?_⟩
      intro other hother hne
      obtain ⟨end', hend, hheld⟩ := h.held other hother
      refine Store.find?_increment (fun hsame => hne ?_) _ (Store.live_of_tallied hheld hend)
      exact List.inj_on_of_nodup_map settings.names_nodup hother hwindow (key_inj hsame)
    · rw [hreply]
      refine .inr ⟨fun hreaches => hroom (left_room hwindow (hreaches window hwindow) _),
        flight.replied counts window ahead (.broken .deadlineOverflow), ?_, _, rfl⟩
      rw [own_of_eq ((flight.identity_replied _).trans hidentity)]
      exact List.mem_append_right _ List.mem_cons_self
  · rw [hturn]
    exact .inl ⟨store, rfl, h⟩

-- What has broken off stays so.
theorem BrokenOff.turn (h : BrokenOff settings identity clock (earlier ++ flight :: later))
    (backend : Backend) :
    BrokenOff settings identity clock (earlier ++ (flight.turn clock backend).1 :: later) := by
  obtain ⟨hroom, broken, hbroken, crash, hprogress⟩ := h
  refine ⟨hroom, broken, ?_, crash, hprogress⟩
  simp only [own, List.mem_filter, List.mem_append, List.mem_cons] at hbroken ⊢
  refine ⟨hbroken.1.imp_right fun hmem => hmem.imp_left fun heq => ?_, hbroken.2⟩
  rw [← heq, Flight.turn_of_stopped hprogress]

-- A whole run, by induction on its turns.
theorem interleaved_sound {swept : Nat} {first flights : List Flight} {backend : Backend}
    (hlisted : isListed settings identity = false)
    (hstart : ∀ flight ∈ first, flight = .start settings flight.identity flight.now)
    (halong : ∀ flight ∈ first, Alongside settings identity now flight)
    (hfew : (own identity first).length < Numeral.maxWord)
    (hrun : Interleaved clock first ⟨.working, { lastSweep := swept }⟩ flights backend) :
    (∀ flight ∈ flights, Alongside settings identity now flight ∧ WellCounted settings flight) ∧
      (own identity flights).length = (own identity first).length ∧
      ((∃ store, backend = ⟨.working, store⟩ ∧
          Sound settings identity clock now flights store) ∨
        BrokenOff settings identity clock flights) := by
  induction hrun with
  | nothing =>
      refine ⟨fun flight hflight => ⟨halong flight hflight, ?_⟩, rfl,
        .inl ⟨_, rfl, .start hlisted hstart⟩⟩
      rw [hstart flight hflight]
      exact WellCounted.start
  | turn earlier flight later backend _ ih =>
      obtain ⟨heach, hlength, hsound⟩ := ih
      obtain ⟨halong, hcounted⟩ := heach flight (by simp)
      refine ⟨?_, (length_own_turn backend).trans hlength, ?_⟩
      · intro other hother
        rw [List.mem_append, List.mem_cons] at hother
        rcases hother with hearlier | rfl | hlater
        · exact heach other (by simp [hearlier])
        · exact ⟨halong.turn backend, hcounted.turn backend⟩
        · exact heach other (by simp [hlater])
      · rcases hsound with ⟨store, rfl, hsound⟩ | hbroken
        · by_cases hidentity : flight.identity = identity
          · refine hsound.turn_own hidentity halong hcounted fun window _ => ?_
            have hle := length_tickets_le identity
              (fun flight hflight => (heach flight hflight).2) window
            omega
          · exact .inl (hsound.turn_other hidentity halong hcounted)
        · exact .inr (hbroken.turn backend)

end RequestGuard.Limiter
