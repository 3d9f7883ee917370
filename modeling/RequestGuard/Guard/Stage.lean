import RequestGuard.Http.Message
import RequestGuard.Store

namespace RequestGuard

-- Answers a request and may change the state on the way, also if it breaks off.
abbrev Handler (σ : Type) := Request → σ → Except Crash Response × σ

-- A stage answers on its own or has the handler inside it answer.
structure Stage (σ : Type) where
  name : String
  process : Handler σ → Handler σ

namespace Stage

-- The first stage is the outermost one.
def compose (stages : List (Stage σ)) (handler : Handler σ) : Handler σ :=
  stages.foldr Stage.process handler

end Stage

-- Changes the response of a handler that gives one.
def Handler.map (f : Response → Response) (handler : Handler σ) : Handler σ :=
  fun request state =>
    match handler request state with
    | (.ok response, after) => (.ok (f response), after)
    | (.error crash, after) => (.error crash, after)

end RequestGuard
