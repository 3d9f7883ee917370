import RequestGuard.Context
import RequestGuard.Guard.Stage
import RequestGuard.Tally
import RequestGuard.Wire

namespace RequestGuard

-- The clocks while a request is answered: seconds for counting requests and for the expiry
-- of credentials, milliseconds for the store, and the time as it is written down.
structure Clocks where
  counting : Nat
  expiring : Nat
  storing : Nat
  written : String

-- All that may change while a request is answered. The time spent is in microseconds; the
-- rest belongs to the routes.
structure Exchange (α : Type) where
  context : Context
  backend : Backend
  clocks : Clocks
  routes : α
  records : List Record := []
  tally : Tally := []
  spent : Nat := 0

namespace Exchange

-- Records reach the journal without what they must not tell.
def write (exchange : Exchange α) (sensitive : List String) (record : Record) : Exchange α :=
  { exchange with records := exchange.records ++ [record.redacted sensitive] }

def raise (exchange : Exchange α) (counter : Counter) : Exchange α :=
  { exchange with tally := exchange.tally.raise counter }

def note (exchange : Exchange α) (event : Event) : Exchange α :=
  { exchange with context := exchange.context.record event }

def noteAll (exchange : Exchange α) (events : List Event) : Exchange α :=
  events.foldl note exchange

def addField (exchange : Exchange α) (key : String) (value : Json) : Exchange α :=
  { exchange with context := exchange.context.addField .request key value }

end Exchange

namespace Failure

def headers (f : Failure) : Headers :=
  match f.kind with
  | .authentication => [("www-authenticate", bytesOf "Bearer")]
  | .rateLimit retryAfter => [("retry-after", bytesOf (decimal retryAfter))]
  | _ => []

-- The response that tells of a failure.
def render (f : Failure) (requestId timestamp : String) (debug : Bool) : Response :=
  let plain := Response.json f.status (f.envelope requestId timestamp debug).toJson
  { plain with headers := plain.headers ++ f.headers }

-- The response of a stage or a route that fails. It carries the failure along.
def response (f : Failure) (requestId timestamp : String) : Response :=
  { f.render requestId timestamp false with failure := some f }

end Failure

def Exchange.refuse (exchange : Exchange α) (failure : Failure) :
    Except Crash Response × Exchange α :=
  (.ok (failure.response exchange.context.requestId exchange.clocks.written), exchange)

end RequestGuard
