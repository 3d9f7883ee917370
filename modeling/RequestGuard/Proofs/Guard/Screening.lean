import RequestGuard.Guard.Screening

namespace RequestGuard

namespace Exchange

-- Events are noted in the context and nowhere else.
theorem noteAll_eq (exchange : Exchange α) (events : List Event) :
    exchange.noteAll events =
      { exchange with context := (exchange.noteAll events).context } := by
  unfold noteAll
  induction events generalizing exchange with
  | nil => rfl
  | cons event rest ih =>
      rw [List.foldl_cons, ih]
      rfl

theorem backend_noteAll (exchange : Exchange α) (events : List Event) :
    (exchange.noteAll events).backend = exchange.backend := by
  rw [noteAll_eq]

theorem routes_noteAll (exchange : Exchange α) (events : List Event) :
    (exchange.noteAll events).routes = exchange.routes := by
  rw [noteAll_eq]

end Exchange

namespace Headers

theorem values_put (headers : Headers) (name value : String) :
    (headers.put name value).values name = [bytesOf value] := by
  have hothers : (headers.filter (·.1 != name)).filter (·.1 == name) = [] := by
    rw [List.filter_filter, List.filter_eq_nil_iff]
    intro header _
    simp
  simp [values, put, List.filter_append, hothers]

theorem values_put_of_ne {name other : String} (h : other ≠ name) (headers : Headers)
    (value : String) : (headers.put name value).values other = headers.values other := by
  have hkept : (headers.filter (·.1 != name)).filter (·.1 == other) =
      headers.filter (·.1 == other) := by
    rw [List.filter_filter]
    refine List.filter_congr fun header _ => ?_
    by_cases hheader : header.1 = other
    · simp [hheader, h]
    · simp [hheader]
  simp [values, put, List.filter_append, hkept, Ne.symm h]

end Headers

namespace Guard

variable {settings : ValidationSettings} {request : Request} {body : Bytes}
  {validated : Validated}

-- A request that does not declare too much, whose body can be read and is valid.
def Screens (settings : ValidationSettings) (request : Request) (body : Bytes)
    (validated : Validated) : Prop :=
  request.declaredLength.any (settings.maxBytes < ·) = false ∧
    request.body.collect settings.maxBytes = .ok body ∧
    validate settings (request.headers.text? "content-type") request.query body = .ok validated

-- It goes on with the body that its validation made of it.
theorem screening_of_screens (h : Screens settings request body validated)
    (next : Handler (Exchange α)) (exchange : Exchange α) :
    (screening settings).process next request exchange =
      next (screened request body validated) (noteValidated validated exchange) := by
  obtain ⟨hdeclared, hbody, hvalid⟩ := h
  simp only [screening, hdeclared, hbody, hvalid, Bool.false_eq_true, if_false]

theorem screening_of_refused (h : ¬∃ body validated, Screens settings request body validated)
    (exchange : Exchange α) : ∃ answer, (∀ next : Handler (Exchange α),
        (screening settings).process next request exchange = answer) ∧
      answer.2.backend = exchange.backend ∧ answer.2.routes = exchange.routes := by
  simp only [screening]
  by_cases hdeclared : request.declaredLength.any (settings.maxBytes < ·) = true
  · simp only [if_pos hdeclared]
    exact ⟨_, fun _ => rfl, rfl, rfl⟩
  simp only [if_neg hdeclared]
  cases hbody : request.body.collect settings.maxBytes with
  | error fault => exact ⟨_, fun _ => rfl, rfl, rfl⟩
  | ok body =>
      simp only
      cases hvalid : validate settings (request.headers.text? "content-type") request.query body with
      | error rejection =>
          exact ⟨_, fun _ => rfl, Exchange.backend_noteAll .., Exchange.routes_noteAll ..⟩
      | ok validated => exact absurd ⟨body, validated, by simpa using hdeclared, hbody, hvalid⟩ h

theorem routes_noteValidated (validated : Validated) (exchange : Exchange α) :
    (noteValidated validated exchange).routes = exchange.routes := by
  simp only [noteValidated]
  split <;> split <;> rfl

theorem body_screened (request : Request) (body : Bytes) (validated : Validated) :
    (screened request body validated).body = .whole (validated.body.getD body) := by
  unfold screened
  split
  · next hnone => rw [hnone, Option.getD_none]
  · next hsome => rw [hsome, Option.getD_some]

theorem contentLength_screened {written : Bytes} (h : validated.body = some written)
    (request : Request) (body : Bytes) :
    (screened request body validated).headers.values "content-length" =
      [bytesOf (decimal written.length)] := by
  simp only [screened, h, Headers.values_put]

end Guard

end RequestGuard
