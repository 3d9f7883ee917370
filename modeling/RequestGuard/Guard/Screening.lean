import RequestGuard.Guard.Exchange
import RequestGuard.Validation.Request

namespace RequestGuard.Guard

-- What a validation has done is noted if it has done anything.
def noteValidated (validated : Validated) (exchange : Exchange α) : Exchange α :=
  let noted :=
    if validated.cutFields.isEmpty then exchange
    else exchange.addField "truncated_fields" (.array (validated.cutFields.map .text))
  if validated.cleanedFields = 0 then noted
  else noted.addField "sanitized_fields" (.nat validated.cleanedFields)

-- The request as it goes on. Only a body that is written anew changes the declared length.
def screened (request : Request) (read : Bytes) (validated : Validated) : Request :=
  match validated.body with
  | none => { request with body := .whole read }
  | some body =>
    { request with
      body := .whole body
      headers := request.headers.put "content-length" (decimal body.length) }

-- Lets valid requests in. One that declares too much is refused before it is read.
def screening (settings : ValidationSettings) : Stage (Exchange α) where
  name := "validate"
  process next request exchange :=
    let tooLarge := exchange.refuse (Validation.sizeFailure settings.maxBytes)
    if request.declaredLength.any (settings.maxBytes < ·) then tooLarge
    else
      match request.body.collect settings.maxBytes with
      | .error _ => tooLarge
      | .ok body =>
        match validate settings (request.headers.text? "content-type") request.query body with
        | .error rejection => (exchange.noteAll rejection.events).refuse rejection.failure
        | .ok validated =>
          next (screened request body validated) (noteValidated validated exchange)

end RequestGuard.Guard
