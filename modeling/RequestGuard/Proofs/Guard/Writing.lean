import RequestGuard.Proofs.Guard.Gates
import RequestGuard.Proofs.Record.Fields

namespace RequestGuard

variable {α : Type}

namespace Exchange

theorem foldl_write (sensitive : List String) (written : List Record) (exchange : Exchange α) :
    written.foldl (fun e record => e.write sensitive record) exchange =
      { exchange with records := exchange.records ++ written.map (Record.redacted sensitive) } := by
  induction written generalizing exchange with
  | nil => simp
  | cons record rest ih =>
      rw [List.foldl_cons, ih]
      simp [write]

theorem foldl_raise (counters : List Counter) (exchange : Exchange α) :
    counters.foldl raise exchange =
      { exchange with tally := counters.foldl Tally.raise exchange.tally } := by
  induction counters generalizing exchange with
  | nil => rfl
  | cons counter rest ih => rw [List.foldl_cons, ih, List.foldl_cons, raise]

-- An exchange before anything has happened.
def blank (requestId : String) (routes : α) : Exchange α where
  context := { requestId, receivedAt := "" }
  backend := { store := ⟨[], 0, List.nodup_nil⟩ }
  clocks := ⟨0, 0, 0, ""⟩
  routes

end Exchange

namespace Guard

-- What the journal tells of a request that has been answered, apart from its body.
def passed (request : Request) (response : Response) (exchange : Exchange α) : Passage :=
  ⟨exchange.context, request, response.status, exchange.spent⟩

def notedOf (settings : LogSettings) (request : Request) (body : Option Json)
    (response : Response) : Fields :=
  arrival request ++ optional "body" body ++ departure settings response

-- The journal only writes records and counts.
theorem concluded_eq (settings : LogSettings) (request : Request) (body : Option Json)
    (response : Response) (exchange : Exchange α) :
    concluded settings request body response exchange =
      (response.header "x-process-time" (milliseconds exchange.spent),
        { exchange with
          records := exchange.records ++
            ((passed request response exchange).records settings
              (notedOf settings request body response)).map
                (Record.redacted settings.sensitiveFields)
          tally := (passed request response exchange).counters.foldl Tally.raise
            exchange.tally }) := by
  simp only [concluded, Exchange.foldl_write, Exchange.foldl_raise]
  rfl

-- What the journal finds out about the body of a request.
def bodyNoted (settings : LogSettings) (request : Request) : Option Json :=
  match taken settings request with
  | .error _ => none
  | .ok (_, body) => body

-- What comes from within the journal: the refusal of a body that cannot be noted, or what the
-- stages behind it make of the request.
def reached (settings : LogSettings) (next : Handler (Exchange α)) : Handler (Exchange α) :=
  fun request exchange =>
    match taken settings request with
    | .error failure => (noteBot settings request exchange).refuse failure
    | .ok (read, _) => next read (noteBot settings request exchange)

theorem journal_eq (settings : LogSettings) (next : Handler (Exchange α)) (request : Request)
    (exchange : Exchange α) : (journal settings).process next request exchange =
      match reached settings next request exchange with
      | (.error crash, after) => (.error crash, after)
      | (.ok response, after) => Prod.map .ok id
          (concluded settings request (bodyNoted settings request) response after) := by
  have htaken : (if settings.isExcluded request.path then .ok (request, none)
      else excerpt settings request) = taken settings request := rfl
  simp only [journal, htaken, reached, bodyNoted]
  cases taken settings request with
  | error failure => rfl
  | ok read =>
      obtain ⟨read, body⟩ := read
      dsimp only
      cases next read (noteBot settings request exchange) with
      | mk outcome after => cases outcome <;> rfl

-- What the outermost stage takes from within: a response, or that of a crash.
def answerOf (run : Except Crash Response × Exchange α) : Response :=
  match run.1 with
  | .ok response => response
  | .error crash =>
    (Failure.crashed crash.message).response run.2.context.requestId run.2.clocks.written

theorem envelope_eq (settings : Settings) (next : Handler (Exchange α)) (request : Request)
    (exchange : Exchange α) : (envelope settings).process next request exchange =
      let run := next request exchange
      let (told, noted) := enveloped settings request (answerOf run) run.2
      (.ok (withRequestId noted.context.requestId told), noted) := rfl

theorem requestId_enveloped (settings : Settings) (request : Request) (response : Response)
    (exchange : Exchange α) : (enveloped settings request response exchange).2.context.requestId =
      exchange.context.requestId :=
  congrArg (·.1.requestId) (core_enveloped settings request response exchange)

theorem enveloped_of_failure {settings : Settings} {request : Request} {response : Response}
    {exchange : Exchange α} {f : Failure} (h : response.failure = some f) :
    enveloped settings request response exchange =
      (withHeadersOf response
          (f.render exchange.context.requestId exchange.clocks.written settings.debug),
        exchange.write settings.logging.sensitiveFields
          (errorRecord exchange.context request f.status f.kind.name f)) := by
  simp only [enveloped, h]

-- The fields of the record of a failure

section ErrorRecord

variable (context : Context) (request : Request) (status : Nat) (kind : String) (f : Failure)

theorem get?_optionally_of_ne {key other : String} (h : other ≠ key) (value : Option String)
    (record : Record) : (optionally key value record).get? other = record.get? other := by
  cases value with
  | none => rfl
  | some s => exact Record.get?_field_of_ne h ..

@[simp] theorem category_optionally (key : String) (value : Option String) (record : Record) :
    (optionally key value record).category = record.category := by
  cases value <;> rfl

@[simp] theorem severity_optionally (key : String) (value : Option String) (record : Record) :
    (optionally key value record).severity = record.severity := by
  cases value <;> rfl

-- What is told of every failure, before its particulars.
def failureFields : Fields := [
  ("request_id", .text context.requestId), ("method", .text request.method),
  ("path", .text request.path), ("status", .nat status), ("kind", .text kind),
  ("code", .text f.code), ("internal", .text f.internal), ("user_message", .text f.userMessage)]

theorem nodup_failureFields :
    ((failureFields context request status kind f).map Prod.fst).Nodup := by
  simp [failureFields]

def failureBase (status : Nat) : Record where
  category := .error
  severity := if 500 ≤ status then .error else .warn
  message := "Request failed"

theorem errorRecord_eq : errorRecord context request status kind f =
    optionally "user_id" (context.identity.map (·.userId)) (optionally "trace" f.trace
      (((failureBase status).extend (failureFields context request status kind f)).extend
        (if f.fields.isEmpty then [] else [("field_errors", Failure.fieldsJson f.fields)]))) := by
  simp only [errorRecord]
  split
  · rfl
  · rfl

theorem category_errorRecord : (errorRecord context request status kind f).category = .error := by
  simp [errorRecord_eq, failureBase]

theorem severity_errorRecord : (errorRecord context request status kind f).severity =
    if 500 ≤ status then .error else .warn := by
  simp [errorRecord_eq, failureBase]

theorem get?_failureFields (key : String) :
    ((failureBase status).extend (failureFields context request status kind f)).get? key =
      Json.lookup key (failureFields context request status kind f) := by
  rw [Record.get?_extend_of_nodup (nodup_failureFields ..)]
  exact Option.or_none

theorem get?_errorRecord {key : String} (huser : key ≠ "user_id") (htrace : key ≠ "trace")
    (hfields : key ≠ "field_errors") : (errorRecord context request status kind f).get? key =
      Json.lookup key (failureFields context request status kind f) := by
  rw [errorRecord_eq, get?_optionally_of_ne huser, get?_optionally_of_ne htrace,
    Record.get?_extend_of_absent, get?_failureFields]
  split
  · rfl
  · exact if_neg (Ne.symm hfields)

theorem internal_errorRecord :
    (errorRecord context request status kind f).get? "internal" = some (.text f.internal) := by
  rw [get?_errorRecord _ _ _ _ _ (by decide) (by decide) (by decide)]
  simp [failureFields, Json.lookup]

theorem requestId_errorRecord : (errorRecord context request status kind f).get? "request_id" =
    some (.text context.requestId) := by
  rw [get?_errorRecord _ _ _ _ _ (by decide) (by decide) (by decide)]
  simp [failureFields, Json.lookup]

theorem trace_errorRecord :
    (errorRecord context request status kind f).get? "trace" = f.trace.map .text := by
  rw [errorRecord_eq, get?_optionally_of_ne (by decide)]
  cases f.trace with
  | some trace => exact Record.get?_field_self ..
  | none =>
      rw [optionally, Record.get?_extend_of_absent, get?_failureFields]
      · simp [failureFields, Json.lookup]
      · split
        · rfl
        · simp [Json.lookup]

end ErrorRecord

end Guard

end RequestGuard
