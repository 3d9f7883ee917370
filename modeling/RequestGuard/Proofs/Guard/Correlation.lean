import RequestGuard.Proofs.Guard.Trail
import RequestGuard.Proofs.Record.Masking

namespace RequestGuard

namespace Headers

theorem text?_put_of_ne {name other : String} (h : other ≠ name) (headers : Headers)
    (value : String) : (headers.put name value).text? other = headers.text? other := by
  have hothers : ∀ header : String × Bytes,
      ((header.1 == other) && (header.1 != name)) = (header.1 == other) := by
    intro header
    by_cases heq : header.1 = other
    · simp [heq, h]
    · simp [heq]
  have hlast : ((name, bytesOf value).1 == other) = false := by simpa using Ne.symm h
  simp only [text?, values, put, List.filter_append, List.filter_filter, hothers,
    List.filter_singleton, hlast]
  simp

end Headers

def countOf (category : Category) (records : List Record) : Nat :=
  records.countP (·.category = category)

theorem countOf_append (category : Category) (records others : List Record) :
    countOf category (records ++ others) = countOf category records + countOf category others :=
  List.countP_append

namespace Guard

variable {α : Type}

-- The records of the journal

theorem lookup_append (key : String) (fields others : Fields) :
    Json.lookup key (fields ++ others) = (Json.lookup key fields).or (Json.lookup key others) := by
  induction fields with
  | nil => rfl
  | cons field rest ih =>
      obtain ⟨k, v⟩ := field
      rw [List.cons_append, Json.lookup, Json.lookup]
      split
      · rfl
      · exact ih

theorem lookup_optional_of_ne {key other : String} (h : other ≠ key) (value : Option Json) :
    Json.lookup other (optional key value) = none := by
  cases value with
  | none => rfl
  | some v => exact if_neg (Ne.symm h)

theorem get?_extend_optional {key other : String} (h : other ≠ key) (record : Record)
    (value : Option Json) : (record.extend (optional key value)).get? other = record.get? other :=
  Record.get?_extend_of_absent (lookup_optional_of_ne h value) record

theorem lookup_notedOf (settings : LogSettings) (request : Request) (body : Option Json)
    (response : Response) :
    Json.lookup "request_id" (notedOf settings request body response) = none := by
  have hdeparture : Json.lookup "request_id" (departure settings response) = none := by
    unfold departure
    split
    · simp [Json.lookup]
    · rfl
  simp only [notedOf, arrival, lookup_append, hdeparture]
  simp [lookup_optional_of_ne, Json.lookup]

namespace Passage

variable (passage : Passage)

@[simp] theorem category_requestRecord (noted : Fields) :
    (passage.requestRecord noted).category = .request := by
  simp [requestRecord]

@[simp] theorem category_securityRecord : passage.securityRecord.category = .security := by
  simp [securityRecord]

@[simp] theorem category_performanceRecord (threshold : Nat) :
    (passage.performanceRecord threshold).category = .performance := by
  simp [performanceRecord]

@[simp] theorem category_analyticsRecord (identity : Identity) :
    (passage.analyticsRecord identity).category = .analytics := by
  simp [analyticsRecord]

-- A field that stands first in a record is there unless it is put again.
theorem get?_extend_first {base : Record} {fields : Fields} {key : String} {value : Json}
    (hnodup : (((key, value) :: fields).map Prod.fst).Nodup) :
    (base.extend ((key, value) :: fields)).get? key = some value := by
  rw [Record.get?_extend_of_nodup hnodup, Json.lookup, if_pos rfl, Option.some_or]

theorem requestId_requestRecord {noted : Fields} (hnoted : Json.lookup "request_id" noted = none)
    (h : Json.lookup "request_id" (passage.context.fields .request) = none) :
    (passage.requestRecord noted).get? "request_id" = some (.text passage.context.requestId) := by
  simp only [requestRecord, user]
  rw [get?_extend_optional (by decide),
    Record.get?_extend_of_absent h, Record.get?_extend_of_absent hnoted]
  exact get?_extend_first (by simp)

theorem requestId_securityRecord
    (h : Json.lookup "request_id" (passage.context.fields .security) = none) :
    passage.securityRecord.get? "request_id" = some (.text passage.context.requestId) := by
  simp only [securityRecord, user, address]
  rw [Record.get?_extend_of_absent h,
    get?_extend_optional (by decide),
    get?_extend_optional (by decide),
    get?_extend_optional (by decide)]
  exact get?_extend_first (by simp)

theorem events_securityRecord
    (h : Json.lookup "events" (passage.context.fields .security) = none) :
    passage.securityRecord.get? "events" =
      some (.array (passage.context.events.map Event.toJson)) := by
  simp only [securityRecord, user, address]
  rw [Record.get?_extend_of_absent h,
    get?_extend_optional (by decide),
    get?_extend_optional (by decide),
    get?_extend_optional (by decide),
    Record.get?_extend_of_nodup (by simp)]
  simp [Json.lookup]

theorem requestId_performanceRecord (threshold : Nat)
    (h : Json.lookup "request_id" (passage.context.fields .performance) = none) :
    (passage.performanceRecord threshold).get? "request_id" =
      some (.text passage.context.requestId) := by
  simp only [performanceRecord]
  rw [Record.get?_extend_of_absent h]
  exact get?_extend_first (by simp)

theorem requestId_analyticsRecord (identity : Identity)
    (h : Json.lookup "request_id" (passage.context.fields .analytics) = none) :
    (passage.analyticsRecord identity).get? "request_id" =
      some (.text passage.context.requestId) := by
  simp only [analyticsRecord, address]
  rw [Record.get?_extend_of_absent h,
    get?_extend_optional (by decide),
    get?_extend_optional (by decide)]
  exact get?_extend_first (by simp)

-- Each record of the journal is one of four.
theorem mem_records {settings : LogSettings} {noted : Fields} {record : Record}
    (h : record ∈ passage.records settings noted) :
    record = passage.requestRecord noted ∨ record = passage.securityRecord ∨
      record = passage.performanceRecord settings.slowThreshold ∨
      ∃ identity, record = passage.analyticsRecord identity := by
  simp only [records, List.mem_append] at h
  obtain ((h | h) | h) | h := h
  · exact .inl (List.mem_singleton.mp h)
  · split at h
    · contradiction
    · exact .inr (.inl (List.mem_singleton.mp h))
  · split at h
    · exact .inr (.inr (.inl (List.mem_singleton.mp h)))
    · contradiction
  · split at h
    · rw [Option.mem_toList, Option.map_eq_some_iff] at h
      obtain ⟨identity, -, hrecord⟩ := h
      exact .inr (.inr (.inr ⟨identity, hrecord.symm⟩))
    · contradiction

theorem category_records {settings : LogSettings} {noted : Fields} {record : Record}
    (h : record ∈ passage.records settings noted) : record.category ≠ .error := by
  obtain rfl | rfl | rfl | ⟨identity, rfl⟩ := mem_records passage h
  · simp
  · simp
  · simp
  · simp

theorem requestId_records {settings : LogSettings} {noted : Fields} {record : Record}
    (hnoted : Json.lookup "request_id" noted = none) (h : record ∈ passage.records settings noted)
    (hfields : Json.lookup "request_id" (passage.context.fields record.category) = none) :
    record.get? "request_id" = some (.text passage.context.requestId) := by
  obtain rfl | rfl | rfl | ⟨identity, rfl⟩ := mem_records passage h
  · exact requestId_requestRecord passage hnoted (by simpa using hfields)
  · exact requestId_securityRecord passage (by simpa using hfields)
  · exact requestId_performanceRecord passage _ (by simpa using hfields)
  · exact requestId_analyticsRecord passage identity (by simpa using hfields)

theorem events_records {settings : LogSettings} {noted : Fields} {record : Record}
    (h : record ∈ passage.records settings noted) (hcategory : record.category = .security)
    (hfields : Json.lookup "events" (passage.context.fields .security) = none) :
    record.get? "events" = some (.array (passage.context.events.map Event.toJson)) := by
  obtain rfl | rfl | rfl | ⟨identity, rfl⟩ := mem_records passage h
  · simp at hcategory
  · exact events_securityRecord passage hfields
  · simp at hcategory
  · simp at hcategory

theorem countOf_records (settings : LogSettings) (noted : Fields) (category : Category) :
    countOf category (passage.records settings noted) =
      match category with
      | .request => 1
      | .security => if passage.context.events = [] then 0 else 1
      | .performance =>
        if settings.isExcluded passage.request.path = false ∧
          settings.slowThreshold < passage.spent / 1000 then 1 else 0
      | .analytics =>
        if settings.isExcluded passage.request.path = false ∧
          passage.context.identity.isSome = true ∧ 200 ≤ passage.status ∧ passage.status < 300
        then 1 else 0
      | .error => 0 := by
  have hone (record : Record) : countOf category [record] =
      if record.category = category then 1 else 0 := by
    simp [countOf, List.countP_singleton]
  have hnone : countOf category [] = 0 := rfl
  have hsome (identity : Option Identity) :
      countOf category (identity.map passage.analyticsRecord).toList =
        if identity.isSome = true ∧ category = .analytics then 1 else 0 := by
    cases identity with
    | none => rfl
    | some identity => simp [hone, eq_comm]
  simp only [records, countOf_append, apply_ite (countOf category), hone, hnone, hsome]
  cases category with
  | request => simp
  | security => simp
  | performance => simp
  | analytics =>
      cases passage.context.identity with
      | none => simp
      | some identity => simp
  | error => simp

end Passage

-- The record of the envelope

-- What the outermost stage notes of a response.
def failureRecords (context : Context) (request : Request) (response : Response) : List Record :=
  match response.failure with
  | some f => [errorRecord context request f.status f.kind.name f]
  | none =>
    if isBareError response then
      [errorRecord context request response.status (bareFailure response.status).1
        (bareFailure response.status).2]
    else []

def isFailed (response : Response) : Bool :=
  response.failure.isSome || isBareError response

-- A response with an envelope for the failure of some request.
def Tells (requestId : String) (response : Response) : Prop :=
  ∃ told : Envelope, told.requestId = requestId ∧ response.body = bytesOf told.toJson.written

theorem isFailed_timed (response : Response) (value : String) :
    isFailed (response.header "x-process-time" value) = isFailed response := by
  have hkind : "content-type" ≠ "x-process-time" := by decide
  simp only [isFailed, isBareError, Response.header, Headers.text?_put_of_ne hkind]
  rfl

theorem failureRecords_timed (context : Context) (request : Request) (response : Response)
    (value : String) :
    failureRecords context request (response.header "x-process-time" value) =
      failureRecords context request response := by
  have hkind : "content-type" ≠ "x-process-time" := by decide
  simp only [failureRecords, isBareError, Response.header, Headers.text?_put_of_ne hkind]
  rfl

theorem tells_render (old : Response) (f : Failure) (requestId timestamp : String)
    (debug : Bool) : Tells requestId (withHeadersOf old (f.render requestId timestamp debug)) := by
  refine ⟨f.envelope requestId timestamp debug, rfl, ?_⟩
  simp only [withHeadersOf, Failure.render, Response.json]

theorem Tells.withRequestId {requestId : String} {response : Response}
    (h : Tells requestId response) (other : String) :
    Tells requestId (withRequestId other response) := h

theorem tells_bareResponse (old : Response) (status : Nat) (requestId timestamp : String) :
    Tells requestId (withHeadersOf old (bareResponse status requestId timestamp)) := by
  simp only [Tells, withHeadersOf, bareResponse, Response.json]
  refine ⟨_, ?_, rfl⟩
  rfl

variable {settings : Settings} {request : Request} {response : Response} {exchange : Exchange α}

-- It notes every failure once, and tells of it under the id of the request.
structure Noted (settings : Settings) (request : Request) (response : Response)
    (exchange : Exchange α) : Prop where
  state : (enveloped settings request response exchange).2 =
    { exchange with
      records := exchange.records ++ (failureRecords exchange.context request response).map
        (Record.redacted settings.logging.sensitiveFields) }
  tells : isFailed response = true →
    Tells exchange.context.requestId (enveloped settings request response exchange).1
  count (category : Category) :
    countOf category (failureRecords exchange.context request response) =
      if category = .error ∧ isFailed response = true then 1 else 0
  severity : ∀ record ∈ failureRecords exchange.context request response, record.severity =
    if 500 ≤ (enveloped settings request response exchange).1.status then .error else .warn

theorem noted_enveloped (settings : Settings) (request : Request) (response : Response)
    (exchange : Exchange α) : Noted settings request response exchange := by
  cases hfailure : response.failure with
  | some f =>
      constructor
      · simp only [enveloped_of_failure hfailure, failureRecords, hfailure]
        rfl
      · intro _
        rw [enveloped_of_failure hfailure]
        exact tells_render ..
      · simp [countOf, List.countP_singleton, failureRecords, isFailed, hfailure,
          category_errorRecord, eq_comm]
      · simp only [enveloped_of_failure hfailure, failureRecords, hfailure, List.mem_singleton]
        rintro record rfl
        exact severity_errorRecord ..
  | none =>
      cases hbare : isBareError response with
      | true =>
          constructor
          · simp only [enveloped, failureRecords, hfailure, hbare, if_true]
            rfl
          · intro _
            simp only [enveloped, hfailure, hbare, if_true]
            exact tells_bareResponse ..
          · simp [countOf, List.countP_singleton, failureRecords, isFailed, hfailure, hbare,
              category_errorRecord, eq_comm]
          · simp only [enveloped, failureRecords, hfailure, hbare, if_true, List.mem_singleton]
            rintro record rfl
            exact severity_errorRecord ..
      | false =>
          constructor
          · simp [enveloped, failureRecords, hfailure, hbare]
          · simp [isFailed, hfailure, hbare]
          · simp [countOf, failureRecords, isFailed, hfailure, hbare]
          · simp [failureRecords, hfailure, hbare]

theorem mem_failureRecords {context : Context} {record : Record}
    (h : record ∈ failureRecords context request response) : record.category = .error ∧
      record.get? "request_id" = some (.text context.requestId) := by
  unfold failureRecords at h
  split at h
  · rw [List.mem_singleton.mp h]
    exact ⟨category_errorRecord .., requestId_errorRecord ..⟩
  · split at h
    · rw [List.mem_singleton.mp h]
      exact ⟨category_errorRecord .., requestId_errorRecord ..⟩
    · contradiction

-- The whole

-- What is written of a request that the inner stages have answered. Routes may put fields of their
-- own in the place of the id or of the events.
structure Written (settings : Settings) (request : Request) (response : Response)
    (after : Exchange α) (told : Response) (written : List Record) : Prop where
  requests : countOf .request written = 1
  security : countOf .security written = if after.context.events = [] then 0 else 1
  performance : countOf .performance written =
    if settings.logging.isExcluded request.path = false ∧
      settings.logging.slowThreshold < after.spent / 1000 then 1 else 0
  analytics : countOf .analytics written =
    if settings.logging.isExcluded request.path = false ∧
      after.context.identity.isSome = true ∧ 200 ≤ response.status ∧ response.status < 300
    then 1 else 0
  error : countOf .error written = if isFailed response = true then 1 else 0
  severity : ∀ record ∈ written, record.category = .error →
    record.severity = if 500 ≤ told.status then .error else .warn
  events : ∀ record ∈ written, record.category = .security →
    Json.lookup "events" (after.context.fields .security) = none →
    record.get? "events" = some (.array (after.context.events.map Event.toJson))
  requestId : ∀ record ∈ written, record.category = .error ∨
    Json.lookup "request_id" (after.context.fields record.category) = none →
    record.get? "request_id" = some (.text after.context.requestId)

-- The exchange when the journal has written its records.
def journaled (settings : LogSettings) (request : Request) (response : Response)
    (after : Exchange α) : Exchange α :=
  (concluded settings request (bodyNoted settings request) response after).2

def journalRecords (settings : LogSettings) (request : Request) (response : Response)
    (after : Exchange α) : List Record :=
  (passed request response after).records settings
    (notedOf settings request (bodyNoted settings request) response)

variable {resolver : Resolver} {routes : Handler (Exchange α)} {after : Exchange α}

theorem protect_of_answered
    (h : reached settings.logging (behindCredential settings resolver routes) request exchange =
      (.ok response, after)) : protect settings resolver routes request exchange =
    let timed := response.header "x-process-time" (milliseconds after.spent)
    let run := enveloped settings request timed (journaled settings.logging request response after)
    (.ok (withRequestId after.context.requestId run.1), run.2) := by
  rw [protect_eq, envelope_eq, journal_eq, h]
  simp only [concluded_eq, journaled, answerOf, requestId_enveloped, Prod.map, id_eq]

theorem protect_of_crashed {crash : Crash}
    (h : reached settings.logging (behindCredential settings resolver routes) request exchange =
      (.error crash, after)) : protect settings resolver routes request exchange =
    let f := Failure.crashed crash.message
    let requestId := after.context.requestId
    (.ok (withRequestId requestId (withHeadersOf (f.response requestId after.clocks.written)
        (f.render requestId after.clocks.written settings.debug))),
      after.write settings.logging.sensitiveFields
        (errorRecord after.context request f.status f.kind.name f)) := by
  have hfailure (f : Failure) (requestId timestamp : String) :
      (f.response requestId timestamp).failure = some f := rfl
  rw [protect_eq, envelope_eq, journal_eq, h]
  simp only [answerOf, enveloped_of_failure (hfailure ..)]
  rfl

theorem context_journaled (settings : LogSettings) (request : Request) (response : Response)
    (after : Exchange α) : (journaled settings request response after).context = after.context := by
  rw [journaled, concluded_eq]

-- The state that the journal and the envelope leave.
theorem state_of_answered (settings : Settings) (request : Request) (response : Response)
    (after : Exchange α) :
    (enveloped settings request (response.header "x-process-time" (milliseconds after.spent))
      (journaled settings.logging request response after)).2 =
    { after with
      records := after.records ++ (journalRecords settings.logging request response after ++
        failureRecords after.context request response).map
          (Record.redacted settings.logging.sensitiveFields)
      tally := (passed request response after).counters.foldl Tally.raise after.tally } := by
  rw [(noted_enveloped ..).state, failureRecords_timed, journaled, concluded_eq]
  simp only [journalRecords, List.map_append, List.append_assoc]

theorem written_of_answered (settings : Settings) (request : Request) (response : Response)
    (after : Exchange α) :
    let timed := response.header "x-process-time" (milliseconds after.spent)
    let told := (enveloped settings request timed
      (journaled settings.logging request response after)).1
    Written settings request response after (withRequestId after.context.requestId told)
      (journalRecords settings.logging request response after ++
        failureRecords after.context request response) := by
  intro timed told
  let body := bodyNoted settings.logging request
  let passage := passed request response after
  obtain ⟨-, -, hcount, hseverity⟩ := noted_enveloped settings request timed
    (journaled settings.logging request response after)
  rw [context_journaled, failureRecords_timed] at hcount hseverity
  rw [isFailed_timed] at hcount
  have hsum (category : Category) := (countOf_append category _ _).trans (congrArg₂ (· + ·)
    (passage.countOf_records settings.logging (notedOf settings.logging request body response)
      category) (hcount category))
  have hlookup := lookup_notedOf settings.logging request body response
  constructor
  · exact hsum .request
  · exact hsum .security
  · exact hsum .performance
  · exact hsum .analytics
  · refine (hsum .error).trans ?_
    simp
  · intro record hrecord hcategory
    obtain hrecord | hrecord := List.mem_append.mp hrecord
    · exact absurd hcategory (passage.category_records hrecord)
    · exact hseverity record hrecord
  · intro record hrecord hcategory hfields
    obtain hrecord | hrecord := List.mem_append.mp hrecord
    · exact passage.events_records hrecord hcategory hfields
    · rw [(mem_failureRecords hrecord).1] at hcategory
      contradiction
  · intro record hrecord hfields
    obtain hrecord | hrecord := List.mem_append.mp hrecord
    · exact passage.requestId_records hlookup hrecord
        (hfields.resolve_left (passage.category_records hrecord))
    · exact (mem_failureRecords hrecord).2

-- Every answered request is counted once.
theorem total_of_answered (settings : Settings) (request : Request) (response : Response)
    (after : Exchange α) : Tally.total "http_requests_total"
      (enveloped settings request (response.header "x-process-time" (milliseconds after.spent))
        (journaled settings.logging request response after)).2.tally =
      Tally.total "http_requests_total" after.tally + 1 := by
  have hevents : ((passed request response after).context.events.map
      fun event => Counter.event event.name).countP (·.name = "http_requests_total") = 0 := by
    simp [List.countP_eq_zero, Counter.event]
  rw [state_of_answered, Tally.total_foldl_raise, Passage.counters, List.countP_cons, hevents]
  simp [Counter.request]

theorem traced_of_answered
    (h : reached settings.logging (behindCredential settings resolver routes) request exchange =
      (.ok response, after)) :
    let final := protect settings resolver routes request exchange
    ∃ told written, final.1 = .ok told ∧
      told.headers.values "x-request-id" = [bytesOf after.context.requestId] ∧
      final.2.records = after.records ++
        written.map (Record.redacted settings.logging.sensitiveFields) ∧
      Written settings request response after told written ∧
      (isFailed response = true → Tells after.context.requestId told) ∧
      Tally.total "http_requests_total" final.2.tally =
        Tally.total "http_requests_total" after.tally + 1 := by
  intro final
  have hfinal : final = _ := protect_of_answered h
  dsimp only at hfinal
  refine ⟨_, journalRecords settings.logging request response after ++
    failureRecords after.context request response, congrArg Prod.fst hfinal,
    Headers.values_put .., ?_, written_of_answered .., ?_, ?_⟩
  · rw [hfinal, state_of_answered]
  · rw [← isFailed_timed]
    intro hfailed
    have htells := (noted_enveloped settings request _
      (journaled settings.logging request response after)).tells hfailed
    rw [context_journaled] at htells
    exact htells.withRequestId _
  · rw [hfinal]
    exact total_of_answered ..

theorem traced_of_crashed {crash : Crash}
    (h : reached settings.logging (behindCredential settings resolver routes) request exchange =
      (.error crash, after)) :
    let final := protect settings resolver routes request exchange
    ∃ told record, final.1 = .ok told ∧
      told.headers.values "x-request-id" = [bytesOf after.context.requestId] ∧
      final.2.records = after.records ++
        [record].map (Record.redacted settings.logging.sensitiveFields) ∧
      told.status = 500 ∧ Tells after.context.requestId told ∧ final.2.tally = after.tally ∧
      record.category = .error ∧ record.severity = .error ∧
      record.get? "request_id" = some (.text after.context.requestId) ∧
      record.get? "internal" = some (.text ("panic: " ++ crash.message)) := by
  intro final
  have hfinal : final = _ := protect_of_crashed h
  dsimp only at hfinal
  let failure := Failure.crashed crash.message
  refine ⟨_, errorRecord after.context request failure.status failure.kind.name failure,
    congrArg Prod.fst hfinal, Headers.values_put .., congrArg (·.2.records) hfinal, rfl,
    (tells_render ..).withRequestId _, congrArg (·.2.tally) hfinal, category_errorRecord ..,
    severity_errorRecord .., requestId_errorRecord .., ?_⟩
  rw [internal_errorRecord]
  rfl

-- Every answered request is told of under its id in the response, in the records and in the
-- envelope of its failure, and is counted once. One that breaks off is told of as a failure.
theorem correlated_exactly (settings : Settings) (resolver : Resolver)
    (routes : Handler (Exchange α)) (hdiscreet : routes.Discreet) (request : Request)
    (exchange : Exchange α) :
    let id := exchange.context.requestId
    let sensitive := settings.logging.sensitiveFields
    let counted (exchange : Exchange α) := Tally.total "http_requests_total" exchange.tally
    let inner := reached settings.logging (behindCredential settings resolver routes) request
      exchange
    let final := protect settings resolver routes request exchange
    ∃ told written, final.1 = .ok told ∧
      told.headers.values "x-request-id" = [bytesOf id] ∧
      final.2.records = exchange.records ++ written.map (Record.redacted sensitive) ∧
      (¬Listed sensitive "request_id" → ∀ record ∈ written,
        record.get? "request_id" = some (.text id) →
        (record.redacted sensitive).get? "request_id" = some (.text id)) ∧
      (∀ response after, inner = (.ok response, after) →
        after.context.requestId = id ∧ Written settings request response after told written ∧
        (isFailed response = true → Tells id told) ∧ counted final.2 = counted exchange + 1) ∧
      (∀ crash after, inner = (.error crash, after) →
        told.status = 500 ∧ Tells id told ∧ counted final.2 = counted exchange ∧
        ∃ record, written = [record] ∧ record.category = .error ∧ record.severity = .error ∧
          record.get? "request_id" = some (.text id) ∧
          record.get? "internal" = some (.text ("panic: " ++ crash.message))) := by
  intro id sensitive counted inner final
  have htrail : inner.2.trail = exchange.trail :=
    discreet_reached (discreet_behindCredential hdiscreet settings resolver) settings.logging ..
  have hshown (hopen : ¬Listed sensitive "request_id") (record : Record)
      (hrecord : record.get? "request_id" = some (.text id)) :
      (record.redacted sensitive).get? "request_id" = some (.text id) :=
    Record.get?_redacted_of_open hopen hrecord
  cases hinner : inner with
  | mk outcome after =>
      rw [hinner] at htrail
      have hid : after.context.requestId = id := congrArg (·.1) htrail
      have hrecords : after.records = exchange.records := congrArg (·.2.1) htrail
      have hcounted : counted after = counted exchange := congrArg (·.2.2) htrail
      cases outcome with
      | ok response =>
          obtain ⟨told, written, hanswer, hheader, hall, hwritten, htells, htotal⟩ :=
            traced_of_answered hinner
          refine ⟨told, written, hanswer, hid ▸ hheader, hrecords ▸ hall,
            fun hopen record _ => hshown hopen record, ?_, ?_⟩
          · rintro _ _ ⟨⟩
            exact ⟨hid, hwritten, hid ▸ htells, htotal.trans (congrArg (· + 1) hcounted)⟩
          · rintro _ _ ⟨⟩
      | error crash =>
          obtain ⟨told, record, hanswer, hheader, hall, hstatus, htells, htally, hcategory,
            hseverity, hrequestId, hinternal⟩ := traced_of_crashed hinner
          refine ⟨told, [record], hanswer, hid ▸ hheader, hrecords ▸ hall,
            fun hopen record _ => hshown hopen record, ?_, ?_⟩
          · rintro _ _ ⟨⟩
          · rintro _ _ ⟨⟩
            have htotal : counted final.2 = counted after :=
              congrArg (Tally.total "http_requests_total") htally
            exact ⟨hstatus, hid ▸ htells, htotal.trans hcounted, record, rfl, hcategory, hseverity,
              hid ▸ hrequestId, hinternal⟩

-- Routes that answer under an id of their own, after some time and with some fields.
def answering (spent : Nat) (fields : Fields) : Handler (Exchange Unit) :=
  fun _ exchange => (.ok ((Response.bare 200).header "x-request-id" "mine"),
    fields.foldl (fun e (key, value) => e.addField key value) { exchange with spent })

theorem correlated_exactly_of_claimed_id :
    let request : Request := { path := "/health", headers := [("x-request-id", bytesOf "yours")] }
    let final := protect {} .ofClaims (answering 0 []) request (.blank "id" ())
    (answering 0 []).Discreet ∧
    ∃ told written, final.1 = .ok told ∧ told.headers.values "x-request-id" = [bytesOf "id"] ∧
      final.2.records = written.map (Record.redacted ({} : LogSettings).sensitiveFields) ∧
      countOf .request written = 1 := by
  intro request final
  have hdiscreet : (answering 0 []).Discreet := fun _ _ => rfl
  obtain ⟨told, written, hanswer, hid, hrecords, -, hanswered, -⟩ :=
    correlated_exactly {} .ofClaims (answering 0 []) hdiscreet request (.blank "id" ())
  refine ⟨hdiscreet, told, written, hanswer, hid, hrecords, ?_⟩
  have hinner : (reached {} (behindCredential {} .ofClaims (answering 0 [])) request
      (.blank "id" ())).1.toOption.isSome = true := by
    decide +kernel
  cases hrun : reached {} (behindCredential {} .ofClaims (answering 0 [])) request
      (.blank "id" ()) with
  | mk outcome after =>
      cases outcome with
      | error crash =>
          rw [hrun] at hinner
          contradiction
      | ok response => exact (hanswered response after hrun).2.1.requests

def idsOf (run : Except Crash Response × Exchange Unit) : List (Category × Option String) :=
  run.2.records.map fun record => (record.category, (record.get? "request_id").bind Claims.text?)

-- A list of names to be hidden may hold the name of the id, routes may put another one in its
-- place, and half a millisecond above the threshold is not slow.
theorem id_lost_and_delay_unseen :
    let health : Request := { path := "/health" }
    let masking : Settings := { logging := { sensitiveFields := ["request_id"] } }
    let timing : Settings := { logging := { excludedPaths := [] } }
    idsOf (protect masking .ofClaims (answering 0 []) health (.blank "id" ())) =
      [(.request, some "[REDACTED]")] ∧
    idsOf (protect {} .ofClaims (answering 0 [("request_id", .text "other")]) health
      (.blank "id" ())) = [(.request, some "other")] ∧
    timing.logging.isExcluded health.path = false ∧
    timing.logging.slowThreshold * 1000 < 1000500 ∧
    idsOf (protect timing .ofClaims (answering 1000500 []) health (.blank "id" ())) =
      [(.request, some "id")] := by
  decide +kernel

end Guard

end RequestGuard
