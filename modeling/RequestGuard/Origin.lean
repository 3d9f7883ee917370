import RequestGuard.Http.Message
import RequestGuard.Text.Listing

namespace RequestGuard.Request

-- The first entry of a list of forwarders that the request went through.
def forwardedFor (request : Request) : Option Address := do
  let value ← request.headers.text? "x-forwarded-for"
  Address.read (Text.trim (value.toList.takeWhile (· != ',')))

def realAddress (request : Request) : Option Address := do
  let value ← request.headers.text? "x-real-ip"
  Address.read (Text.trim value.toList)

-- Where a request comes from. What the headers say counts only behind a proxy that sets them.
def origin (behindProxy : Bool) (request : Request) : Option Address :=
  if behindProxy then request.forwardedFor.or (request.realAddress.or request.peer)
  else request.peer

-- The name under which a caller who has not said who they are is counted.
def anonymousIdentity (behindProxy : Bool) (request : Request) : String :=
  match request.origin behindProxy with
  | some address => "ip:" ++ address.text
  | none => "ip:unknown"

end RequestGuard.Request
