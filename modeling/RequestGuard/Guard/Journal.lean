import RequestGuard.Endpoint
import RequestGuard.Form
import RequestGuard.Guard.Exchange
import RequestGuard.Origin
import RequestGuard.Validation.Request

namespace RequestGuard.Guard

def occursIn (part : List Char) : List Char → Bool
  | [] => part.isEmpty
  | c :: rest => part.isPrefixOf (c :: rest) || occursIn part rest

def botMarks : List String :=
  ["bot", "crawler", "spider", "scraper"]

def isBot (userAgent : String) : Bool :=
  botMarks.any fun mark => occursIn mark.toList (lowered userAgent).toList

def headersJson (headers : Headers) : Json :=
  .ofMembers (headers.map fun (name, value) =>
    (name, .text ((Headers.textOf? value).getD "<binary>")))

def queryJson (query : String) : Json :=
  .ofMembers ((Form.read (bytesOf query)).map fun (name, value) => (name, .text value))

def optional (key : String) (value : Option Json) : Fields :=
  (value.map fun v => (key, v)).toList

-- What is known of a request when it arrives. The address is noted as it is claimed.
def arrival (request : Request) : Fields :=
  [("method", .text request.method), ("path", .text request.path)] ++
    optional "query" (request.query.map queryJson) ++
    optional "client_ip" ((request.origin true).map fun address => .text address.text) ++
    [("headers", headersJson request.headers)]

def isJson (request : Request) : Bool :=
  (request.headers.text? "content-type").any fun kind =>
    (lowered kind).startsWith "application/json"

-- Whether the body is noted: it is declared to be JSON, and not longer than what is kept.
def wantsExcerpt (settings : LogSettings) (request : Request) : Bool :=
  isJson request &&
    request.declaredLength.any fun length => 0 < length && length ≤ settings.maxBodySize

def unreadable (fault : Body.Fault) : Failure :=
  .invalidField "VAL_MALFORMED" Path.root ("request body could not be read: " ++ fault.message)

-- Reads a body that is noted. What turns out longer than declared is refused, for it cannot
-- go on whole.
def excerpt (settings : LogSettings) (request : Request) :
    Except Failure (Request × Option Json) :=
  if wantsExcerpt settings request then
    match request.body.collect settings.maxBodySize with
    | .error fault => .error (unreadable fault)
    | .ok body => .ok ({ request with body := .whole body }, (Json.parse body).toOption)
  else .ok (request, none)

def responseSize (response : Response) : Nat :=
  ((response.headers.text? "content-length").bind readWord).getD response.body.length

def departure (settings : LogSettings) (response : Response) : Fields :=
  if settings.logResponses then
    [("response_headers", headersJson response.headers),
      ("response_size", .nat (responseSize response))]
  else []

-- Microseconds as milliseconds with three places.
def milliseconds (spent : Nat) : String :=
  let places := decimal (spent % 1000)
  decimal (spent / 1000) ++ "." ++ String.ofList (List.replicate (3 - places.length) '0') ++ places

def duration (spent : Nat) : Json :=
  .ofOption (fun x => .number (.real x)) (Binary64.nearest false spent 1000)

-- A request and its response, as the records tell of them.
structure Passage where
  context : Context
  request : Request
  status : Nat
  spent : Nat

namespace Passage

def user (passage : Passage) : Fields :=
  optional "user_id" (passage.context.identity.map fun identity => .text identity.userId)

def agent (passage : Passage) : Option String :=
  passage.request.headers.text? "user-agent"

def address (passage : Passage) : Fields :=
  optional "client_ip" ((passage.request.origin true).map fun address => .text address.text)

def requestRecord (passage : Passage) (noted : Fields) : Record :=
  let base : Record :=
    { category := .request
      severity := .ofStatus passage.status
      message := "Request completed" }
  (((base.extend [("request_id", .text passage.context.requestId),
    ("timestamp", .text passage.context.receivedAt), ("status", .nat passage.status),
    ("duration_ms", duration passage.spent)]).extend noted).extend
      (passage.context.fields .request)).extend passage.user

def securityRecord (passage : Passage) : Record :=
  let base : Record :=
    { category := .security, severity := .warn, message := "Security events detected" }
  ((((base.extend [("request_id", .text passage.context.requestId),
    ("method", .text passage.request.method), ("path", .text passage.request.path),
    ("status", .nat passage.status),
    ("events", .array (passage.context.events.map Event.toJson))]).extend passage.address).extend
      (optional "user_agent" (passage.agent.map .text))).extend passage.user).extend
        (passage.context.fields .security)

def performanceRecord (passage : Passage) (threshold : Nat) : Record :=
  let base : Record := { category := .performance, severity := .warn, message := "Slow request" }
  (base.extend [("request_id", .text passage.context.requestId),
    ("method", .text passage.request.method), ("path", .text passage.request.path),
    ("status", .nat passage.status), ("duration_ms", duration passage.spent),
    ("threshold_ms", .nat threshold)]).extend (passage.context.fields .performance)

def analyticsRecord (passage : Passage) (identity : Identity) : Record :=
  let base : Record := { category := .analytics, severity := .info, message := "API usage" }
  let referer := passage.request.headers.text? "referer"
  (((base.extend [("request_id", .text passage.context.requestId),
    ("user_id", .text identity.userId), ("method", .text passage.request.method),
    ("resource", .text passage.request.path),
    ("endpoint", .text (Endpoint.ofPath passage.request.path)), ("status", .nat passage.status),
    ("duration_ms", duration passage.spent), ("user_agent", .text (passage.agent.getD "")),
    ("referer", .text (referer.getD ""))]).extend passage.address).extend
      (optional "api_version" ((Endpoint.version? passage.request.path).map .text))).extend
        (passage.context.fields .analytics)

-- The records of a request in their order. Excluded paths have no performance and no
-- analytics; security is never left out.
def records (settings : LogSettings) (passage : Passage) (noted : Fields) : List Record :=
  let isExcluded := settings.isExcluded passage.request.path
  let isSlow := settings.slowThreshold < passage.spent / 1000
  let isUse := 200 ≤ passage.status && passage.status < 300
  [passage.requestRecord noted] ++
    (if passage.context.events.isEmpty then [] else [passage.securityRecord]) ++
    (if !isExcluded && isSlow then [passage.performanceRecord settings.slowThreshold] else []) ++
    (if !isExcluded && isUse then
      (passage.context.identity.map passage.analyticsRecord).toList
    else [])

def counters (passage : Passage) : List Counter :=
  .request passage.request.method (decimal passage.status) ::
    passage.context.events.map fun event => .event event.name

end Passage

def noteBot (settings : LogSettings) (request : Request) (exchange : Exchange α) : Exchange α :=
  match request.headers.text? "user-agent" with
  | some agent =>
    if settings.detectBots && isBot agent then exchange.note (.botDetected agent) else exchange
  | none => exchange

-- Writes the records once the response is there.
def concluded (settings : LogSettings) (request : Request) (body : Option Json)
    (response : Response) (exchange : Exchange α) : Response × Exchange α :=
  let noted := arrival request ++ optional "body" body ++ departure settings response
  let passage : Passage := ⟨exchange.context, request, response.status, exchange.spent⟩
  let counted := passage.counters.foldl Exchange.raise exchange
  let written := (passage.records settings noted).foldl
    (fun e record => e.write settings.sensitiveFields record) counted
  (response.header "x-process-time" (milliseconds exchange.spent), written)

-- Takes down every request that is answered. A request whose body cannot be noted goes no
-- further.
def journal (settings : LogSettings) : Stage (Exchange α) where
  name := "request_log"
  process next request exchange :=
    let exchange := noteBot settings request exchange
    let read :=
      if settings.isExcluded request.path then .ok (request, none) else excerpt settings request
    let ((outcome, after), body) :=
      match read with
      | .error failure => (exchange.refuse failure, none)
      | .ok (request, body) => (next request exchange, body)
    match outcome with
    | .error crash => (.error crash, after)
    | .ok response =>
      let (told, written) := concluded settings request body response after
      (.ok told, written)

end RequestGuard.Guard
