import RequestGuard.Proofs.Limiter.Windows

namespace RequestGuard.Limiter

inductive Call where
  | check
  | usage
  | reset
deriving DecidableEq

-- A call by an identity, with the milliseconds that the clock of the store shows.
structure Step where
  clock : Nat
  identity : String
  call : Call

-- The limiter has a clock of its own, in seconds and ahead by a fixed time.
def nowAt (start clock : Nat) : Nat :=
  (start + clock) / 1000

inductive Answer where
  | decided (outcome : Except Crash Decision)
  | used (reply : Reply Nat)
  | cleared (reply : Reply Bool)

variable (settings : LimitSettings) (start : Nat)

-- A call at any time that the clock of the limiter may show.
def performAt (now : Nat) (step : Step) (backend : Backend) : Answer × Backend :=
  match step.call with
  | .check =>
    let (outcome, next) := check settings step.clock now step.identity backend
    (.decided outcome, next)
  | .usage =>
    let (reply, next) := usage settings step.clock now step.identity backend
    (.used reply, next)
  | .reset =>
    let (reply, next) := reset settings now step.identity backend
    (.cleared reply, next)

def perform (step : Step) (backend : Backend) : Answer × Backend :=
  performAt settings (nowAt start step.clock) step backend

-- What a run of calls leaves behind.
def after (run : List Step) (backend : Backend) : Backend :=
  run.foldl (fun backend step => (perform settings start step backend).2) backend

def isListed (identity : String) : Bool :=
  settings.isBlacklisted identity || settings.isWhitelisted identity

def Concerns (identity : String) (window : Window) (bucket : Nat) (step : Step) : Prop :=
  step.identity = identity ∧ window.bucket (nowAt start step.clock) = bucket

instance (identity : String) (window : Window) (bucket : Nat) :
    DecidablePred (Concerns start identity window bucket) :=
  fun _ => inferInstanceAs (Decidable (_ ∧ _))

-- The checks of an identity in a bucket since its last reset in the bucket.
def counted (history : List Step) (identity : String) (window : Window) (bucket : Nat) : Nat :=
  if isListed settings identity then 0
  else
    ((history.filter (Concerns start identity window bucket)).reverse.takeWhile
      (·.call ≠ .reset)).countP (·.call = .check)

-- What is decided of a caller that has been counted so often in each window before. The
-- blacklist wins over the whitelist.
def Decides (identity : String) (count : Window → Nat) (decision : Decision) : Prop :=
  (decision = .blocked ↔ settings.isBlacklisted identity) ∧
  (decision = .bypassed ↔ settings.isWhitelisted identity ∧ ¬settings.isBlacklisted identity) ∧
  ((∃ window n limit wait, decision = .limited window n limit wait) ↔
    (¬settings.isBlacklisted identity ∧ ¬settings.isWhitelisted identity) ∧
      ∃ window ∈ settings.windows, window.limit < count window + 1) ∧
  ((∃ limit remaining, decision = .allowed limit remaining) ↔
    (¬settings.isBlacklisted identity ∧ ¬settings.isWhitelisted identity) ∧
      ∀ window ∈ settings.windows, count window + 1 ≤ window.limit)

-- The answer that a history asks for.
def Exact (history : List Step) (step : Step) (answer : Answer) : Prop :=
  let count (window : Window) : Nat :=
    counted settings start history step.identity window (window.bucket (nowAt start step.clock))
  match step.call with
  | .check =>
    ∃ decision, answer = .decided (.ok decision) ∧ Decides settings step.identity count decision
  | .usage => answer = .used (.done (count settings.primary))
  | .reset =>
    ∃ existed, answer = .cleared (.done existed) ∧
      (existed = true ↔ ∃ window ∈ settings.windows, 0 < count window)

section Counted

variable {settings start} {history : List Step} {step : Step} {identity : String}
  {window : Window} {bucket : Nat}

theorem counted_of_listed (h : isListed settings identity = true) :
    counted settings start history identity window bucket = 0 := by
  rw [counted, if_pos h]

theorem counted_other (h : ¬Concerns start identity window bucket step) :
    counted settings start (history ++ [step]) identity window bucket =
      counted settings start history identity window bucket := by
  simp [counted, List.filter_append, h]

theorem counted_check (h : Concerns start identity window bucket step)
    (hlisted : isListed settings identity = false) (hcall : step.call = .check) :
    counted settings start (history ++ [step]) identity window bucket =
      counted settings start history identity window bucket + 1 := by
  simp [counted, hlisted, List.filter_append, h, hcall]

theorem counted_usage (hcall : step.call = .usage) :
    counted settings start (history ++ [step]) identity window bucket =
      counted settings start history identity window bucket := by
  by_cases h : Concerns start identity window bucket step
  · simp [counted, List.filter_append, h, hcall]
  · exact counted_other h

theorem counted_reset (h : Concerns start identity window bucket step)
    (hcall : step.call = .reset) :
    counted settings start (history ++ [step]) identity window bucket = 0 := by
  simp [counted, List.filter_append, h, hcall]

theorem counted_le_length :
    counted settings start history identity window bucket ≤ history.length := by
  unfold counted
  split
  · exact Nat.zero_le _
  · let concerning := history.filter (Concerns start identity window bucket)
    have htaken := (concerning.reverse.takeWhile_sublist
      fun step => decide (step.call ≠ .reset)).length_le
    have hfilter : concerning.length ≤ history.length := List.length_filter_le _ history
    rw [List.length_reverse] at htaken
    exact Nat.le_trans List.countP_le_length (Nat.le_trans htaken hfilter)

end Counted

-- A request is limited if its count is beyond some limit, and allowed otherwise.

theorem decision_of_exceeded {counts : List Counted} {c : Counted} (hc : c ∈ counts)
    (hexceeded : c.isExceeded = true) (now : Nat) :
    ∃ window n limit wait, decision settings now counts = .limited window n limit wait := by
  have hmem : c ∈ counts.filter (·.isExceeded) := List.mem_filter.mpr ⟨hc, hexceeded⟩
  unfold decision
  cases hfilter : counts.filter (·.isExceeded) with
  | nil => simp [hfilter] at hmem
  | cons d rest =>
      simp only [Counted.greatest]
      cases Counted.greatest (·.window.left now) rest with
      | none => exact ⟨_, _, _, _, rfl⟩
      | some e => exact ⟨_, _, _, _, rfl⟩

theorem decision_of_within {counts : List Counted}
    (hwithin : ∀ c ∈ counts, c.isExceeded = false) (now : Nat) :
    ∃ limit remaining, decision settings now counts = .allowed limit remaining := by
  have hfilter : counts.filter (·.isExceeded) = [] := by
    rw [List.filter_eq_nil_iff]
    intro c hc
    simp [hwithin c hc]
  simp only [decision, hfilter, Counted.greatest]
  cases Counted.least (·.remaining) counts with
  | none => exact ⟨_, _, rfl⟩
  | some c => exact ⟨_, _, rfl⟩

theorem decision_decides {identity : String} (hlisted : isListed settings identity = false)
    (count : Window → Nat) (now : Nat) :
    Decides settings identity count (decision settings now
      (settings.windows.map fun window => ⟨window, count window + 1⟩)) := by
  obtain ⟨hblack, hwhite⟩ := Bool.or_eq_false_iff.mp hlisted
  by_cases hover : ∃ window ∈ settings.windows, window.limit < count window + 1
  · obtain ⟨window, hwindow, hlimit⟩ := hover
    have hnot : ¬∀ window ∈ settings.windows, count window + 1 ≤ window.limit :=
      fun hall => Nat.not_le.mpr hlimit (hall window hwindow)
    obtain ⟨name, n, limit, wait, hdecision⟩ := decision_of_exceeded settings
      (List.mem_map_of_mem (f := fun window => ⟨window, count window + 1⟩) hwindow)
      (decide_eq_true hlimit) now
    simp only [Decides, hdecision, hblack, hwhite]
    refine ⟨by simp, by simp, ?_, ?_⟩
    · exact ⟨fun _ => ⟨by simp, window, hwindow, hlimit⟩, fun _ => ⟨_, _, _, _, rfl⟩⟩
    · exact ⟨fun ⟨_, _, hallowed⟩ => (nomatch hallowed), fun h => absurd h.2 hnot⟩
  · have hall : ∀ window ∈ settings.windows, count window + 1 ≤ window.limit :=
      fun window hwindow => Nat.not_lt.mp fun hlimit => hover ⟨window, hwindow, hlimit⟩
    have hwithin : ∀ c ∈ settings.windows.map fun window => Counted.mk window (count window + 1),
        c.isExceeded = false := by
      simpa [Counted.isExceeded] using hall
    obtain ⟨limit, remaining, hdecision⟩ := decision_of_within settings hwithin now
    simp only [Decides, hdecision, hblack, hwhite]
    refine ⟨by simp, by simp, ?_, ?_⟩
    · exact ⟨fun ⟨_, _, _, _, hlimited⟩ => (nomatch hlimited), fun h => absurd h.2 hover⟩
    · exact ⟨fun _ => ⟨by simp, hall⟩, fun _ => ⟨_, _, rfl⟩⟩

end RequestGuard.Limiter
