import RequestGuard.Guard.Exchange
import RequestGuard.Limiter
import RequestGuard.Origin

namespace RequestGuard.Guard

def withQuota (limit remaining : Nat) (response : Response) : Response :=
  (response.header "x-ratelimit-limit" (decimal limit)).header
    "x-ratelimit-remaining" (decimal remaining)

-- Who a request is counted for.
def limitIdentity (settings : LimitSettings) (request : Request) (context : Context) : String :=
  match context.identity with
  | some identity => "user:" ++ identity.userId
  | none => request.anonymousIdentity settings.behindProxy

def refuseBlocked (identity : String) (exchange : Exchange α) :
    Except Crash Response × Exchange α :=
  ((exchange.raise .blocked).note (.blockedIdentity identity)).refuse
    (.blocked (identity ++ " is blacklisted"))

def refuseLimited (identity : String) (window : WindowName) (count limit retryAfter : Nat)
    (exchange : Exchange α) : Except Crash Response × Exchange α :=
  let (response, after) := ((exchange.raise (.rejection window.name)).note
    (.limitExceeded identity count limit)).refuse (.rateLimited retryAfter)
  (response.map (withQuota limit 0), after)

-- Lets callers in who have not come too often. Somebody whose address is blacklisted is
-- refused whoever they are.
def quota (settings : LimitSettings) : Stage (Exchange α) where
  name := "rate_limit"
  process next request exchange :=
    let address := request.anonymousIdentity settings.behindProxy
    let identity := limitIdentity settings request exchange.context
    if settings.isBlacklisted address then refuseBlocked address exchange
    else
      let (outcome, backend) := Limiter.check settings exchange.clocks.storing
        exchange.clocks.counting identity exchange.backend
      let exchange := { exchange with backend }
      match outcome with
      | .error crash => (.error crash, exchange)
      | .ok decision =>
        let exchange := decision.counters.foldl Exchange.raise exchange
        match decision with
        | .allowed limit remaining =>
          Handler.map (withQuota limit remaining) next request exchange
        | .limited window count limit retryAfter =>
          refuseLimited identity window count limit retryAfter exchange
        | .blocked => refuseBlocked identity exchange
        | .bypassed => next request exchange
        | .degraded => next request exchange

end RequestGuard.Guard
