import RequestGuard.Guard.Credential
import RequestGuard.Guard.Envelope
import RequestGuard.Guard.Journal
import RequestGuard.Guard.Quota
import RequestGuard.Guard.Screening

namespace RequestGuard

-- A route that breaks off fails like any other.
def shielded (routes : Handler (Exchange α)) : Handler (Exchange α) :=
  fun request exchange =>
    match routes request exchange with
    | (.ok response, after) => (.ok response, after)
    | (.error crash, after) => after.refuse (.crashed crash.message)

namespace Guard

-- The five stages, the outermost first.
def standard (settings : Settings) (resolver : Resolver) : List (Stage (Exchange α)) :=
  [envelope settings, journal settings.logging, credential settings.auth resolver,
    quota settings.limits, screening settings.validation]

end Guard

-- Routes behind all the stages.
def protect (settings : Settings) (resolver : Resolver) (routes : Handler (Exchange α)) :
    Handler (Exchange α) :=
  Stage.compose (Guard.standard settings resolver) (shielded routes)

end RequestGuard
