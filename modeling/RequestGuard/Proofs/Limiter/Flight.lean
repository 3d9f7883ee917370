import RequestGuard.Proofs.Limiter.History

namespace RequestGuard.Limiter

-- How far a check has come: it is still being counted, or it has stopped before the end.
inductive Progress where
  | counting (counts : List Counted) (ahead : List Window)
  | stopped (outcome : Except Crash Decision)

-- A check that is under way, perhaps together with others. A store answers one increment at a
-- time, so between any two of its own others may be answered.
structure Flight where
  identity : String
  now : Nat
  progress : Progress

namespace Flight

def start (settings : LimitSettings) (identity : String) (now : Nat) : Flight where
  identity
  now
  progress :=
    if settings.isBlacklisted identity then .stopped (.ok .blocked)
    else if settings.isWhitelisted identity then .stopped (.ok .bypassed)
    else .counting [] settings.windows

-- How a check goes on after the reply to the increment of a window. It is given up if the store
-- fails or breaks.
def replied (flight : Flight) (counts : List Counted) (window : Window) (ahead : List Window) :
    Reply Nat → Flight
  | .done count => { flight with progress := .counting (counts ++ [⟨window, count⟩]) ahead }
  | .failed _ => { flight with progress := .stopped (.ok .degraded) }
  | .broken crash => { flight with progress := .stopped (.error crash) }

-- The next increment of a check, if it has one to make.
def turn (clock : Nat) (flight : Flight) (backend : Backend) : Flight × Backend :=
  match flight.progress with
  | .counting counts (window :: ahead) =>
    let (reply, next) := backend.increment clock (window.key flight.identity flight.now)
      (window.left flight.now)
    (flight.replied counts window ahead reply, next)
  | _ => (flight, backend)

-- What a check has come to, once no increment is ahead of it.
def outcome? (settings : LimitSettings) (flight : Flight) : Option (Except Crash Decision) :=
  match flight.progress with
  | .counting counts [] => some (.ok (decision settings flight.now counts))
  | .counting _ (_ :: _) => none
  | .stopped outcome => some outcome

def decision? (settings : LimitSettings) (flight : Flight) : Option Decision :=
  (flight.outcome? settings).bind (·.toOption)

def isAllowed (settings : LimitSettings) (flight : Flight) : Bool :=
  match flight.decision? settings with
  | some (.allowed ..) => true
  | _ => false

-- A check that takes its turns with nothing in between.
def turns (clock : Nat) : Nat → Flight → Backend → Flight × Backend
  | 0, flight, backend => (flight, backend)
  | n + 1, flight, backend =>
    turns clock n (flight.turn clock backend).1 (flight.turn clock backend).2

variable {settings : LimitSettings} {identity : String} {clock now : Nat} {flight : Flight}
  {backend : Backend} {counts : List Counted} {window : Window} {ahead : List Window}

theorem turn_of_counting (h : flight.progress = .counting counts (window :: ahead)) :
    flight.turn clock backend =
      (flight.replied counts window ahead (backend.increment clock
          (window.key flight.identity flight.now) (window.left flight.now)).1,
        (backend.increment clock (window.key flight.identity flight.now)
          (window.left flight.now)).2) := by
  simp only [turn, h]

theorem turn_of_stopped {outcome : Except Crash Decision}
    (h : flight.progress = .stopped outcome) : flight.turn clock backend = (flight, backend) := by
  simp only [turn, h]

theorem turn_of_counted (h : flight.progress = .counting counts []) :
    flight.turn clock backend = (flight, backend) := by
  simp only [turn, h]

-- A turn is one increment, or none.
theorem turn_cases (flight : Flight) (clock : Nat) (backend : Backend) :
    (∃ counts window ahead, flight.progress = .counting counts (window :: ahead)) ∨
      flight.turn clock backend = (flight, backend) := by
  cases hprogress : flight.progress with
  | stopped outcome => exact .inr (turn_of_stopped hprogress)
  | counting counts ahead =>
      cases ahead with
      | nil => exact .inr (turn_of_counted hprogress)
      | cons window ahead => exact .inl ⟨counts, window, ahead, rfl⟩

theorem turns_of_stopped {outcome : Except Crash Decision}
    (h : flight.progress = .stopped outcome) (n : Nat) :
    flight.turns clock n backend = (flight, backend) := by
  induction n with
  | zero => rfl
  | succ n ih => rw [turns, turn_of_stopped h, ih]

-- Who checks, and when, stays.

@[simp] theorem identity_replied (reply : Reply Nat) :
    (flight.replied counts window ahead reply).identity = flight.identity := by
  cases reply <;> rfl

@[simp] theorem now_replied (reply : Reply Nat) :
    (flight.replied counts window ahead reply).now = flight.now := by
  cases reply <;> rfl

@[simp] theorem identity_turn : (flight.turn clock backend).1.identity = flight.identity := by
  obtain ⟨counts, window, ahead, h⟩ | h := turn_cases flight clock backend
  · rw [turn_of_counting h, identity_replied]
  · rw [h]

@[simp] theorem now_turn : (flight.turn clock backend).1.now = flight.now := by
  obtain ⟨counts, window, ahead, h⟩ | h := turn_cases flight clock backend
  · rw [turn_of_counting h, now_replied]
  · rw [h]

-- What a check that counts in some windows has come to after as many turns.
def concluded (flight : Flight) (counts : List Counted) : Reply (List Counted) → Flight
  | .done more => { flight with progress := .counting (counts ++ more) [] }
  | .failed _ => { flight with progress := .stopped (.ok .degraded) }
  | .broken crash => { flight with progress := .stopped (.error crash) }

theorem turns_of_counting (h : flight.progress = .counting counts ahead) (backend : Backend) :
    flight.turns clock ahead.length backend =
      (flight.concluded counts (countAll flight.identity clock flight.now ahead backend).1,
        (countAll flight.identity clock flight.now ahead backend).2) := by
  induction ahead generalizing flight counts backend with
  | nil =>
      simp only [List.length_nil, turns, countAll, concluded, List.append_nil, ← h]
  | cons window rest ih =>
      rw [List.length_cons, turns, countAll, turn_of_counting h]
      cases hreply : backend.increment clock (window.key flight.identity flight.now)
          (window.left flight.now) with
      | mk reply next =>
          cases reply with
          | failed error => exact turns_of_stopped rfl _
          | broken crash => exact turns_of_stopped rfl _
          | done count =>
              simp only [replied]
              rw [ih rfl next]
              cases countAll flight.identity clock flight.now rest next with
              | mk others last =>
                  cases others with
                  | done more => simp [concluded, List.append_assoc]
                  | failed error => rfl
                  | broken crash => rfl

-- Taking its turns with nothing in between, it is the check of the limiter.
theorem turns_eq_check (settings : LimitSettings) (clock now : Nat) (identity : String)
    (backend : Backend) :
    let (flight, after) := (start settings identity now).turns clock settings.windows.length backend
    flight.outcome? settings = some (check settings clock now identity backend).1 ∧
      after = (check settings clock now identity backend).2 := by
  by_cases hblack : settings.isBlacklisted identity
  · have hstart : (start settings identity now).progress = .stopped (.ok .blocked) := by
      simp [start, hblack]
    simp only [turns_of_stopped hstart, outcome?, hstart, check, if_pos hblack, and_self]
  by_cases hwhite : settings.isWhitelisted identity
  · have hstart : (start settings identity now).progress = .stopped (.ok .bypassed) := by
      simp [start, hblack, hwhite]
    simp only [turns_of_stopped hstart, outcome?, hstart, check, if_neg hblack, if_pos hwhite,
      and_self]
  have hstart : (start settings identity now).progress = .counting [] settings.windows := by
    simp [start, hblack, hwhite]
  simp only [turns_of_counting hstart, check, if_neg hblack, if_neg hwhite]
  show outcome? settings (concluded _ [] (countAll identity clock now settings.windows backend).1) =
    _ ∧ (countAll identity clock now settings.windows backend).2 = _
  cases countAll identity clock now settings.windows backend with
  | mk reply next =>
      cases reply with
      | done more => exact ⟨rfl, rfl⟩
      | failed error => exact ⟨rfl, rfl⟩
      | broken crash => exact ⟨rfl, rfl⟩

end Flight

end RequestGuard.Limiter
