import RequestGuard.Settings.Basic
import RequestGuard.Store
import RequestGuard.Tally

namespace RequestGuard

inductive WindowName where
  | primary
  | hour
  | day
deriving DecidableEq

def WindowName.name : WindowName → String
  | primary => "window"
  | hour => "hour"
  | day => "day"

-- A span of time in which requests are counted, always starting at a multiple of its
-- length.
structure Window where
  name : WindowName
  limit : Nat
  seconds : Nat
deriving DecidableEq

namespace Window

def bucket (window : Window) (now : Nat) : Nat :=
  now / window.seconds

-- The seconds until the next bucket begins.
def left (window : Window) (now : Nat) : Nat :=
  window.seconds - now % window.seconds

end Window

namespace LimitSettings

def primary (settings : LimitSettings) : Window :=
  ⟨.primary, settings.requests, max settings.windowSeconds 1⟩

def windows (settings : LimitSettings) : List Window :=
  settings.primary :: ((settings.hourly.map (Window.mk .hour · 3600)).toList ++
    (settings.daily.map (Window.mk .day · 86400)).toList)

def isBlacklisted (settings : LimitSettings) (identity : String) : Bool :=
  settings.blacklist.contains identity

def isWhitelisted (settings : LimitSettings) (identity : String) : Bool :=
  settings.whitelist.contains identity

end LimitSettings

-- The key of a counter. The primary window does not name itself.
def counterKey (identity : String) (window : WindowName) (bucket : Nat) : String :=
  match window with
  | .primary => "rate_limit:" ++ identity ++ ":" ++ decimal bucket
  | name => "rate_limit:" ++ identity ++ ":" ++ name.name ++ ":" ++ decimal bucket

def Window.key (window : Window) (identity : String) (now : Nat) : String :=
  counterKey identity window.name (window.bucket now)

inductive Decision where
  | allowed (limit remaining : Nat)
  | limited (window : WindowName) (count limit retryAfter : Nat)
  | blocked
  | bypassed
  | degraded
deriving DecidableEq

-- What a check raises on its own. Whoever acts on the decision may raise more.
def Decision.counters : Decision → List Counter
  | .degraded => [.degraded]
  | _ => []

-- A window with the number that a request got in it.
structure Counted where
  window : Window
  count : Nat

namespace Counted

def isExceeded (c : Counted) : Bool :=
  c.window.limit < c.count

def remaining (c : Counted) : Nat :=
  c.window.limit - c.count

-- The first of those with the greatest value.
def greatest (value : Counted → Nat) : List Counted → Option Counted
  | [] => none
  | c :: rest =>
    match greatest value rest with
    | none => some c
    | some d => some (if value c < value d then d else c)

-- The first of those with the least value.
def least (value : Counted → Nat) : List Counted → Option Counted
  | [] => none
  | c :: rest =>
    match least value rest with
    | none => some c
    | some d => some (if value d < value c then d else c)

end Counted

namespace Limiter

-- Over any window, the wait is the longest among those exceeded; within all, the tightest
-- window is told.
def decision (settings : LimitSettings) (now : Nat) (counts : List Counted) : Decision :=
  match Counted.greatest (·.window.left now) (counts.filter (·.isExceeded)) with
  | some c => .limited c.window.name c.count c.window.limit (c.window.left now)
  | none =>
    match Counted.least (·.remaining) counts with
    | some c => .allowed c.window.limit c.remaining
    | none => .allowed settings.requests 0

-- Counts a request in each window in turn, as far as the store answers.
def countAll (identity : String) (storeNow now : Nat) :
    List Window → Backend → Reply (List Counted) × Backend
  | [], backend => (.done [], backend)
  | window :: rest, backend =>
    match backend.increment storeNow (window.key identity now) (window.left now) with
    | (.failed e, backend) => (.failed e, backend)
    | (.broken c, backend) => (.broken c, backend)
    | (.done count, backend) =>
      match countAll identity storeNow now rest backend with
      | (.done counts, backend) => (.done (⟨window, count⟩ :: counts), backend)
      | (.failed e, backend) => (.failed e, backend)
      | (.broken c, backend) => (.broken c, backend)

-- Blacklisted callers are refused and whitelisted ones let through without counting. A
-- store that fails lets everybody through.
def check (settings : LimitSettings) (storeNow now : Nat) (identity : String)
    (backend : Backend) : Except Crash Decision × Backend :=
  if settings.isBlacklisted identity then (.ok .blocked, backend)
  else if settings.isWhitelisted identity then (.ok .bypassed, backend)
  else
    match countAll identity storeNow now settings.windows backend with
    | (.done counts, backend) => (.ok (decision settings now counts), backend)
    | (.failed _, backend) => (.ok .degraded, backend)
    | (.broken crash, backend) => (.error crash, backend)

-- The number of requests counted in the current bucket of the primary window. A value that
-- is no number counts as zero.
def usage (settings : LimitSettings) (storeNow now : Nat) (identity : String)
    (backend : Backend) : Reply Nat × Backend :=
  match backend.get storeNow (settings.primary.key identity now) with
  | (.done value, backend) => (.done ((value.bind readWord).getD 0), backend)
  | (.failed e, backend) => (.failed e, backend)
  | (.broken c, backend) => (.broken c, backend)

def resetAll (identity : String) (now : Nat) :
    List Window → Backend → Reply Bool × Backend
  | [], backend => (.done false, backend)
  | window :: rest, backend =>
    match backend.delete (window.key identity now) with
    | (.done existed, backend) =>
      match resetAll identity now rest backend with
      | (.done others, backend) => (.done (existed || others), backend)
      | (.failed e, backend) => (.failed e, backend)
      | (.broken c, backend) => (.broken c, backend)
    | (.failed e, backend) => (.failed e, backend)
    | (.broken c, backend) => (.broken c, backend)

-- Forgets what was counted in the current buckets and tells whether that was anything.
def reset (settings : LimitSettings) (now : Nat) (identity : String) (backend : Backend) :
    Reply Bool × Backend :=
  resetAll identity now settings.windows backend

end Limiter

end RequestGuard
