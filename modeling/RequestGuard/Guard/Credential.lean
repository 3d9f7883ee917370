import RequestGuard.Guard.Exchange

namespace RequestGuard

-- The credential that a header bears: what comes after the scheme and the first space.
def bearer? (value : String) : Option String :=
  let text := value.toList
  if text.takeWhile (· != ' ') == "Bearer".toList then
    some (String.ofList ((text.dropWhile (· != ' ')).drop 1))
  else none

namespace Guard

def refuseCaller (failure : Failure) (exchange : Exchange α) :
    Except Crash Response × Exchange α :=
  (exchange.addField "auth"
    (.ofMembers [("outcome", .text "failure"), ("code", .text failure.code)])).refuse failure

def admitCaller (verified : Verified) (exchange : Exchange α) : Exchange α :=
  let noted := exchange.addField "auth"
    (.ofMembers [("outcome", .text "success"), ("credential_id", .text verified.credentialId)])
  { noted with
    context := (noted.context.attach verified.identity verified.credentialId).2 }

-- Lets callers in whose credential is good. Without a credential only public paths are open;
-- a bad one is refused there too.
def credential (settings : AuthSettings) (resolver : Resolver) : Stage (Exchange α) where
  name := "auth"
  process next request exchange :=
    if !request.headers.contains "authorization" then
      if settings.isPublic request.path then next request exchange
      else refuseCaller (.authentication "missing bearer credential") exchange
    else
      match (request.headers.text? "authorization").bind bearer? with
      | none =>
        refuseCaller (.authentication "authorization header is not a bearer credential") exchange
      | some token =>
        let (outcome, backend) := Verifier.verify settings resolver exchange.clocks.expiring
          exchange.clocks.storing token exchange.backend
        let exchange := { exchange with backend }
        match outcome with
        | .error crash => (.error crash, exchange)
        | .ok (.ok verified) => next request (admitCaller verified exchange)
        | .ok (.error refusal) =>
          refuseCaller refusal.failure (exchange.noteAll refusal.event.toList)

end Guard

end RequestGuard
