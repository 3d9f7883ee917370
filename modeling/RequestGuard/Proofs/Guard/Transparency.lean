import RequestGuard.Proofs.Guard.Passage
import RequestGuard.Proofs.Guard.Writing

namespace RequestGuard

namespace Body

-- The bytes that come, up to where a body breaks off if it does.

def received : List (Option Bytes) → Bytes
  | [] => []
  | none :: _ => []
  | some chunk :: rest => chunk ++ received rest

def content : Body → Bytes
  | whole bytes => bytes
  | stream chunks => received chunks

def BreaksOff : Body → Prop
  | whole _ => False
  | stream chunks => none ∈ chunks

instance (body : Body) : Decidable body.BreaksOff :=
  match body with
  | whole _ => inferInstanceAs (Decidable False)
  | stream chunks => inferInstanceAs (Decidable (none ∈ chunks))

-- A body is read in order, so one that is too long is found out before it breaks off.
theorem collectChunks_eq (room : Nat) (chunks : List (Option Bytes)) :
    collectChunks room chunks =
      if room < (received chunks).length then .error .tooLong
      else if none ∈ chunks then .error .brokenOff
      else .ok (received chunks) := by
  induction chunks generalizing room with
  | nil => rfl
  | cons chunk rest ih =>
      cases chunk with
      | none => simp [collectChunks, received]
      | some chunk =>
          have hlength : (received (some chunk :: rest)).length =
              chunk.length + (received rest).length := List.length_append
          rw [collectChunks, hlength]
          by_cases hroom : room < chunk.length
          · rw [if_pos hroom, if_pos (by omega)]
          have hrest : room - chunk.length < (received rest).length ↔
              room < chunk.length + (received rest).length := by omega
          simp only [if_neg hroom, ih, hrest, List.mem_cons, reduceCtorEq, false_or]
          split
          · rfl
          · split
            · rfl
            · rfl

theorem collect_eq (limit : Nat) (body : Body) :
    body.collect limit =
      if limit < body.content.length then .error .tooLong
      else if body.BreaksOff then .error .brokenOff
      else .ok body.content := by
  cases body with
  | whole bytes => simp [collect, content, BreaksOff]
  | stream chunks => exact collectChunks_eq limit chunks

end Body

-- The same to whoever reads it. A body may have been put together meanwhile.
structure Request.SameAs (request read : Request) : Prop where
  method : read.method = request.method
  path : read.path = request.path
  query : read.query = request.query
  headers : read.headers = request.headers
  peer : read.peer = request.peer
  content : read.body.content = request.body.content
  breaksOff : read.body.BreaksOff ↔ request.body.BreaksOff
  declared : read.declaredLength = request.declaredLength

theorem Request.SameAs.refl (request : Request) : request.SameAs request :=
  ⟨rfl, rfl, rfl, rfl, rfl, rfl, .rfl, rfl⟩

-- The same response but for the time that it took.
structure Response.Timed (spent : Nat) (response told : Response) : Prop where
  status : told.status = response.status
  body : told.body = response.body
  failure : told.failure = response.failure
  others : ∀ name, name ≠ "x-process-time" →
    told.headers.values name = response.headers.values name
  time : told.headers.values "x-process-time" = [bytesOf (Guard.milliseconds spent)]

theorem Response.timed_header (response : Response) (spent : Nat) :
    response.Timed spent (response.header "x-process-time" (Guard.milliseconds spent)) where
  status := rfl
  body := rfl
  failure := rfl
  others _ hname := Headers.values_put_of_ne hname ..
  time := Headers.values_put ..

namespace Guard

variable {α : Type} {settings : LogSettings} {request read : Request}

-- A body is noted that is said to be JSON, in any letters, and not longer than what is kept.
structure Excerpted (settings : LogSettings) (request : Request) : Prop where
  included : settings.isExcluded request.path = false
  isJson : ∃ kind, request.headers.text? "content-type" = some kind ∧
    "application/json".toList <+: kind.toList.map Char.toLower
  declared : ∃ length, request.declaredLength = some length ∧ 1 ≤ length ∧
    length ≤ settings.maxBodySize

theorem isJson_iff : Guard.isJson request = true ↔
    ∃ kind, request.headers.text? "content-type" = some kind ∧
      "application/json".toList <+: kind.toList.map Char.toLower := by
  simp [Guard.isJson, Option.any_eq_true, String.startsWith_string_iff, lowered]

theorem excerpted_iff : Excerpted settings request ↔
    settings.isExcluded request.path = false ∧ wantsExcerpt settings request = true := by
  have hdeclared : (request.declaredLength.any fun length =>
      0 < length && length ≤ settings.maxBodySize) = true ↔
        ∃ length, request.declaredLength = some length ∧ 1 ≤ length ∧
          length ≤ settings.maxBodySize := by
    simp [Option.any_eq_true, Nat.succ_le_iff]
  rw [wantsExcerpt, Bool.and_eq_true, isJson_iff, hdeclared]
  constructor
  · rintro ⟨hincluded, hjson, hlength⟩
    exact ⟨hincluded, hjson, hlength⟩
  · rintro ⟨hincluded, hjson, hlength⟩
    exact ⟨hincluded, hjson, hlength⟩

-- What is noted cannot be kept whole, or has not come whole.
def CutShort (settings : LogSettings) (request : Request) : Prop :=
  settings.maxBodySize < request.body.content.length ∨ request.body.BreaksOff

theorem taken_of_unreadable (h : Excerpted settings request) {fault : Body.Fault}
    (hbody : request.body.collect settings.maxBodySize = .error fault) :
    taken settings request = .error (unreadable fault) := by
  obtain ⟨hincluded, hwants⟩ := excerpted_iff.mp h
  simp only [taken, hincluded, excerpt, hwants, hbody, if_true, Bool.false_eq_true, if_false]

theorem taken_of_readable (h : Excerpted settings request) {body : Bytes}
    (hbody : request.body.collect settings.maxBodySize = .ok body) :
    taken settings request =
      .ok ({ request with body := .whole body }, (Json.parse body).toOption) := by
  obtain ⟨hincluded, hwants⟩ := excerpted_iff.mp h
  simp only [taken, hincluded, excerpt, hwants, hbody, if_true, Bool.false_eq_true, if_false]

theorem taken_of_not_excerpted (h : ¬Excerpted settings request) :
    taken settings request = .ok (request, none) := by
  rw [excerpted_iff, not_and, Bool.not_eq_true] at h
  unfold taken excerpt
  cases hexcluded : settings.isExcluded request.path with
  | true => rfl
  | false => rw [h hexcluded]; rfl

theorem taken_of_cutShort (hexcerpt : Excerpted settings request)
    (hcut : CutShort settings request) :
    ∃ fault, taken settings request = .error (unreadable fault) := by
  have hbody : ∃ fault, request.body.collect settings.maxBodySize = .error fault := by
    rw [Body.collect_eq]
    by_cases hlong : settings.maxBodySize < request.body.content.length
    · exact ⟨_, if_pos hlong⟩
    · rw [if_neg hlong, if_pos (hcut.resolve_left hlong)]
      exact ⟨_, rfl⟩
  obtain ⟨fault, hfault⟩ := hbody
  exact ⟨fault, taken_of_unreadable hexcerpt hfault⟩

-- A body that is put together here was streamed under a declared length, or was whole before.
theorem declaredLength_whole (h : (request.declaredLength).isSome = true) :
    ({ request with body := .whole request.body.content } : Request).declaredLength =
      request.declaredLength := by
  unfold Request.declaredLength at h ⊢
  cases hbody : request.body with
  | whole bytes => rfl
  | stream chunks =>
      rw [hbody, Body.exactLength, Option.or_none] at h
      simp only [Body.exactLength, Option.or_of_isSome h]

theorem taken_of_whole (h : ¬(Excerpted settings request ∧ CutShort settings request)) :
    ∃ read body, taken settings request = .ok (read, body) ∧ request.SameAs read := by
  by_cases hexcerpt : Excerpted settings request
  · have hkept : ¬CutShort settings request := fun hcut => h ⟨hexcerpt, hcut⟩
    obtain ⟨hshort, hwhole⟩ := not_or.mp hkept
    have hbody : request.body.collect settings.maxBodySize = .ok request.body.content := by
      rw [Body.collect_eq, if_neg hshort, if_neg hwhole]
    obtain ⟨length, hlength, -⟩ := hexcerpt.declared
    refine ⟨_, _, taken_of_readable hexcerpt hbody, rfl, rfl, rfl, rfl, rfl, rfl,
      iff_of_false id hwhole, ?_⟩
    exact declaredLength_whole (by rw [hlength]; rfl)
  · exact ⟨request, none, taken_of_not_excerpted hexcerpt, .refl request⟩

-- The journal answers on its own, whatever lies within.
def Refused (settings : LogSettings) (request : Request) (exchange : Exchange α) : Prop :=
  ∃ (failure : Failure) (answer : Response) (after : Exchange α),
    failure.status = 422 ∧ failure.code = "VAL_MALFORMED" ∧
    (∀ next, (journal settings).process next request exchange = (.ok answer, after)) ∧
    (failure.response exchange.context.requestId exchange.clocks.written).Timed
      exchange.spent answer

-- It hands the request on and gives back what comes, or breaks off where that does.
def HandedOn (settings : LogSettings) (request : Request) (exchange : Exchange α) : Prop :=
  ∃ read, request.SameAs read ∧ ∀ next,
    let inner := next read (noteBot settings request exchange)
    let outer := (journal settings).process next request exchange
    (∀ response, inner.1 = .ok response →
      ∃ told, outer.1 = .ok told ∧ response.Timed inner.2.spent told) ∧
    (∀ crash, inner.1 = .error crash → outer = inner) ∧ outer.2.core = inner.2.core

-- One of the two at most, because what lies within may answer anything.
theorem not_refused_of_handedOn {exchange : Exchange α}
    (hhanded : HandedOn settings request exchange) : ¬Refused settings request exchange := by
  rintro ⟨failure, answer, after, hfailure, -, hanswer, htimed⟩
  obtain ⟨read, -, hhanded⟩ := hhanded
  obtain ⟨told, htold, hsame⟩ :=
    (hhanded fun _ exchange => (.ok (.bare 200), exchange)).1 _ rfl
  rw [hanswer] at htold
  cases htold
  have hstatus : 200 = failure.status := hsame.status.symm.trans htimed.status
  rw [hfailure] at hstatus
  contradiction

-- What has been noted of a bot changes nothing about a refusal.
theorem refuse_noteBot (settings : LogSettings) (request : Request) (exchange : Exchange α)
    (failure : Failure) : (noteBot settings request exchange).refuse failure =
      (.ok (failure.response exchange.context.requestId exchange.clocks.written),
        noteBot settings request exchange) := by
  unfold noteBot
  split
  · split <;> rfl
  · rfl

theorem journal_of_answered {next : Handler (Exchange α)} {exchange after : Exchange α}
    {response : Response} (h : reached settings next request exchange = (.ok response, after)) :
    (journal settings).process next request exchange =
      (.ok (response.header "x-process-time" (milliseconds after.spent)),
        (concluded settings request (bodyNoted settings request) response after).2) := by
  simp only [journal_eq, h, concluded_eq, Prod.map, id]

theorem journal_of_crashed {next : Handler (Exchange α)} {exchange after : Exchange α}
    {crash : Crash} (h : reached settings next request exchange = (.error crash, after)) :
    (journal settings).process next request exchange = (.error crash, after) := by
  rw [journal_eq, h]

theorem refused_of_cutShort (hexcerpt : Excerpted settings request)
    (hcut : CutShort settings request) (exchange : Exchange α) :
    Refused settings request exchange := by
  obtain ⟨fault, htaken⟩ := taken_of_cutShort hexcerpt hcut
  have hreached (next : Handler (Exchange α)) : reached settings next request exchange =
      (.ok ((unreadable fault).response exchange.context.requestId exchange.clocks.written),
        noteBot settings request exchange) := by
    simp only [reached, htaken, refuse_noteBot]
  have hspent : (noteBot settings request exchange).spent = exchange.spent := by
    rw [noteBot_eq]
  exact ⟨unreadable fault, _, _, rfl, rfl, fun next => journal_of_answered (hreached next),
    hspent ▸ Response.timed_header ..⟩

theorem handedOn_of_whole (h : ¬(Excerpted settings request ∧ CutShort settings request))
    (exchange : Exchange α) : HandedOn settings request exchange := by
  obtain ⟨read, body, htaken, hsame⟩ := taken_of_whole h
  refine ⟨read, hsame, fun next => ⟨?_, ?_, core_journal_of_taken htaken next exchange⟩⟩
  all_goals
    have hreached : reached settings next request exchange =
        next read (noteBot settings request exchange) := by
      simp only [reached, htaken]
  · intro response hresponse
    rw [journal_of_answered (hreached.trans (Prod.ext hresponse rfl))]
    exact ⟨_, rfl, Response.timed_header ..⟩
  · intro crash hcrash
    rw [journal_of_crashed (hreached.trans (Prod.ext hcrash rfl)), ← hcrash]

-- The journal hands every request on as it came, and gives back what comes from within with the
-- time that it took. It refuses a request on its own exactly if the body is to be noted and is
-- longer than what is kept, or breaks off.
theorem journal_transparent (settings : LogSettings) (request : Request) (exchange : Exchange α) :
    (Refused settings request exchange ↔
      Excerpted settings request ∧
        (settings.maxBodySize < request.body.content.length ∨ request.body.BreaksOff)) ∧
    (HandedOn settings request exchange ↔ ¬Refused settings request exchange) := by
  have hrefused (h : Excerpted settings request ∧ CutShort settings request) :
      Refused settings request exchange := refused_of_cutShort h.1 h.2 exchange
  have hhanded (h : ¬(Excerpted settings request ∧ CutShort settings request)) :
      HandedOn settings request exchange := handedOn_of_whole h exchange
  refine ⟨⟨fun h => ?_, hrefused⟩, not_refused_of_handedOn, fun h => hhanded fun hcut =>
    h (hrefused hcut)⟩
  by_contra hwhole
  exact not_refused_of_handedOn (hhanded hwhole) h

-- A connection that breaks off behind the first byte of two.
theorem short_body_refused :
    let request : Request :=
      { method := "POST"
        path := "/raw"
        headers := [("content-type", bytesOf "application/json"),
          ("content-length", bytesOf "2")]
        body := .stream [some (bytesOf "["), none] }
    request.body.content.length ≤ ({} : LogSettings).maxBodySize ∧
      Refused {} request (Exchange.blank "id" ()) := by
  intro request
  have hexcerpt : Excerpted {} request :=
    ⟨by decide, ⟨_, by rfl, by decide⟩, ⟨2, by decide, by decide, by decide⟩⟩
  exact ⟨by decide, refused_of_cutShort hexcerpt (.inr (by decide)) _⟩

end Guard

end RequestGuard
