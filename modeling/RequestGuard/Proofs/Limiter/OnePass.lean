import RequestGuard.Proofs.Limiter.Deciding

namespace RequestGuard

-- Arithmetic that gives no result where it would fall below zero or divide by it.

def sub? (a b : Nat) : Option Nat :=
  if b ≤ a then some (a - b) else none

def div? (a b : Nat) : Option Nat :=
  if b = 0 then none else some (a / b)

def mod? (a b : Nat) : Option Nat :=
  if b = 0 then none else some (a % b)

theorem sub?_eq {a b : Nat} (h : b ≤ a) : sub? a b = some (a - b) := if_pos h

theorem div?_eq {a b : Nat} (h : 0 < b) : div? a b = some (a / b) := if_neg (Nat.ne_of_gt h)

theorem mod?_eq {a b : Nat} (h : 0 < b) : mod? a b = some (a % b) := if_neg (Nat.ne_of_gt h)

namespace Window

def bucket? (window : Window) (now : Nat) : Option Nat :=
  div? now window.seconds

def left? (window : Window) (now : Nat) : Option Nat :=
  (mod? now window.seconds).bind (sub? window.seconds)

theorem bucket?_eq {window : Window} (hseconds : 0 < window.seconds) (now : Nat) :
    window.bucket? now = some (window.bucket now) := div?_eq hseconds

theorem left?_eq {window : Window} (hseconds : 0 < window.seconds) (now : Nat) :
    window.left? now = some (window.left now) := by
  rw [left?, mod?_eq hseconds, Option.bind_some, sub?_eq (Nat.le_of_lt (Nat.mod_lt now hseconds)),
    left]

end Window

namespace Limiter

-- What a check has found so far: the longest wait among the windows exceeded, and the limit and
-- the room of the tightest of the others.
structure Optima where
  exceeded : Option Decision := none
  tightest : Option (Nat × Nat) := none

namespace Optima

def exceed (optima : Optima) (window : Window) (count wait : Nat) : Optima :=
  let limited := Decision.limited window.name count window.limit wait
  match optima.exceeded with
  | some (.limited _ _ _ retryAfter) =>
    if retryAfter < wait then { optima with exceeded := some limited } else optima
  | _ => { optima with exceeded := some limited }

def fit (optima : Optima) (limit remaining : Nat) : Optima :=
  match optima.tightest with
  | some (_, least) =>
    if remaining < least then { optima with tightest := some (limit, remaining) } else optima
  | none => { optima with tightest := some (limit, remaining) }

def decision (settings : LimitSettings) (optima : Optima) : Decision :=
  match optima.exceeded, optima.tightest with
  | some limited, _ => limited
  | none, some (limit, remaining) => .allowed limit remaining
  | none, none => .allowed settings.requests 0

def limited (now : Nat) (c : Counted) : Decision :=
  .limited c.window.name c.count c.window.limit (c.window.left now)

-- The optima of what has been counted.
def of (now : Nat) (counts : List Counted) : Optima where
  exceeded := ((counts.filter (·.isExceeded)).argmax (·.window.left now)).map (limited now)
  tightest := ((counts.filter (!·.isExceeded)).argmin (·.remaining)).map
    fun c => (c.window.limit, c.remaining)

end Optima

-- A check in one pass, each window in its turn: counted, and then compared with the optima so far.
def pass? (settings : LimitSettings) (identity : String) (clock now : Nat) :
    List Window → Optima → Backend → Option (Except Crash Decision × Backend)
  | [], optima, backend => some (.ok (optima.decision settings), backend)
  | window :: rest, optima, backend => do
    let left ← window.left? now
    let bucket ← window.bucket? now
    match backend.increment clock (counterKey identity window.name bucket) left with
    | (.failed _, next) => some (.ok .degraded, next)
    | (.broken crash, next) => some (.error crash, next)
    | (.done count, next) =>
      if window.limit < count then
        pass? settings identity clock now rest (optima.exceed window count left) next
      else do
        let remaining ← sub? window.limit count
        pass? settings identity clock now rest (optima.fit window.limit remaining) next

def check? (settings : LimitSettings) (clock now : Nat) (identity : String) (backend : Backend) :
    Option (Except Crash Decision × Backend) :=
  if settings.isBlacklisted identity then some (.ok .blocked, backend)
  else if settings.isWhitelisted identity then some (.ok .bypassed, backend)
  else pass? settings identity clock now settings.windows {} backend

variable {settings : LimitSettings} {identity : String} {clock now : Nat} {counts : List Counted}
  {window : Window} {count : Nat}

namespace Optima

theorem of_exceed (h : window.limit < count) :
    (of now counts).exceed window count (window.left now) =
      of now (counts ++ [⟨window, count⟩]) := by
  have hexceeded : (Counted.mk window count).isExceeded = true := decide_eq_true h
  simp only [of, List.filter_append, List.filter_cons, hexceeded, List.filter_nil, ite_true,
    Bool.not_true, Bool.false_eq_true, ite_false, List.append_nil, List.argmax_concat]
  cases (counts.filter (·.isExceeded)).argmax (·.window.left now) with
  | none => rfl
  | some c =>
      by_cases hlonger : c.window.left now < window.left now
      · simp only [exceed, Option.map_some, limited, if_pos hlonger]
      · simp only [exceed, Option.map_some, limited, if_neg hlonger]

theorem of_fit (h : ¬window.limit < count) :
    (of now counts).fit window.limit (window.limit - count) =
      of now (counts ++ [⟨window, count⟩]) := by
  have hwithin : (Counted.mk window count).isExceeded = false := decide_eq_false h
  simp only [of, List.filter_append, List.filter_cons, hwithin, List.filter_nil, ite_true,
    Bool.not_false, Bool.false_eq_true, ite_false, List.append_nil, List.argmin_concat]
  cases (counts.filter (!·.isExceeded)).argmin (·.remaining) with
  | none => rfl
  | some c =>
      by_cases htighter : window.limit - count < c.window.limit - c.count
      · simp [fit, Counted.remaining, htighter]
      · simp [fit, Counted.remaining, htighter]

theorem decision_of (settings : LimitSettings) (now : Nat) (counts : List Counted) :
    (of now counts).decision settings = Limiter.decision settings now counts := by
  rw [decision, Limiter.decision, greatest_eq_argmax, least_eq_argmin]
  cases hc : (counts.filter (·.isExceeded)).argmax (·.window.left now) with
  | some c => simp only [of, hc, Option.map_some, limited]
  | none =>
      have hwithin : counts.filter (!·.isExceeded) = counts := by
        rw [List.filter_eq_self]
        have hempty := List.filter_eq_nil_iff.mp (List.argmax_eq_none.mp hc)
        simpa using hempty
      simp only [of, hc, hwithin, Option.map_none]
      cases counts.argmin (·.remaining) <;> rfl

end Optima

-- What becomes of the counts of the windows that are left.
def concluded (settings : LimitSettings) (now : Nat) (counts : List Counted) :
    Reply (List Counted) → Except Crash Decision
  | .done more => .ok (decision settings now (counts ++ more))
  | .failed _ => .ok .degraded
  | .broken crash => .error crash

theorem pass?_eq (settings : LimitSettings) {windows : List Window}
    (hseconds : ∀ window ∈ windows, 0 < window.seconds) (counts : List Counted)
    (backend : Backend) :
    pass? settings identity clock now windows (.of now counts) backend =
      some (concluded settings now counts (countAll identity clock now windows backend).1,
        (countAll identity clock now windows backend).2) := by
  induction windows generalizing counts backend with
  | nil => simp only [pass?, Optima.decision_of, countAll, concluded, List.append_nil]
  | cons window rest ih =>
      obtain ⟨hwindow, hrest⟩ := List.forall_mem_cons.mp hseconds
      simp only [pass?, Window.left?_eq hwindow, Window.bucket?_eq hwindow, countAll, Window.key,
        Option.bind_eq_bind, Option.bind_some]
      cases backend.increment clock (counterKey identity window.name (window.bucket now))
          (window.left now) with
      | mk reply next =>
          cases reply with
          | failed error => rfl
          | broken crash => rfl
          | done count =>
              have hpass : (if window.limit < count then
                  pass? settings identity clock now rest
                    ((Optima.of now counts).exceed window count (window.left now)) next
                else (sub? window.limit count).bind fun remaining =>
                  pass? settings identity clock now rest
                    ((Optima.of now counts).fit window.limit remaining) next) =
                  pass? settings identity clock now rest
                    (.of now (counts ++ [⟨window, count⟩])) next := by
                split
                · next hexceeded => rw [Optima.of_exceed hexceeded]
                · next hwithin =>
                    rw [sub?_eq (Nat.not_lt.mp hwithin), Option.bind_some, Optima.of_fit hwithin]
              simp only [hpass, ih hrest]
              cases countAll identity clock now rest next with
              | mk others last =>
                  cases others with
                  | done more => simp [concluded, List.append_assoc]
                  | failed error => rfl
                  | broken crash => rfl

-- One pass with running optima comes to what the check does, and its arithmetic never fails.
theorem check?_eq (settings : LimitSettings) (clock now : Nat) (identity : String)
    (backend : Backend) :
    check? settings clock now identity backend =
      some (check settings clock now identity backend) := by
  rw [check?, check]
  split
  · rfl
  · split
    · rfl
    · have hempty : ({} : Optima) = .of now [] := rfl
      rw [hempty, pass?_eq settings (fun _ => LimitSettings.seconds_pos)]
      cases countAll identity clock now settings.windows backend with
      | mk reply next => cases reply <;> rfl

end Limiter

end RequestGuard
