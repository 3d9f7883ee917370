import RequestGuard.Text.Listing

namespace RequestGuard

-- A counter of the operators: what is counted, with labels.
structure Counter where
  name : String
  labels : List (String × String) := []
deriving DecidableEq

namespace Counter

def degraded : Counter :=
  { name := "store_degraded_total" }

def rejection (window : String) : Counter :=
  { name := "rate_limit_rejections_total", labels := [("window", window)] }

def blocked : Counter :=
  { name := "rate_limit_blocked_total" }

def event (name : String) : Counter :=
  { name := "security_events_total", labels := [("event", name)] }

def request (method status : String) : Counter :=
  { name := "http_requests_total", labels := [("method", method), ("status", status)] }

end Counter

-- How often each counter has been raised. A counter that never was is not there.
abbrev Tally := List (Counter × Nat)

namespace Tally

def raise (tally : Tally) (counter : Counter) : Tally :=
  match tally with
  | [] => [(counter, 1)]
  | (c, n) :: rest => if c = counter then (c, n + 1) :: rest else (c, n) :: raise rest counter

def count (tally : Tally) (counter : Counter) : Nat :=
  match tally with
  | [] => 0
  | (c, n) :: rest => if c = counter then n else count rest counter

end Tally

end RequestGuard
