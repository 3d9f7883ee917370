import RequestGuard.Proofs.Guard.Gates

namespace RequestGuard.Guard

variable {α : Type} {settings : Settings} {resolver : Resolver} {request read : Request}
  {exchange : Exchange α} {caller : Option Verified} {backend : Backend}

-- The routes behind the inner stages
def behindQuota (settings : Settings) (routes : Handler (Exchange α)) : Handler (Exchange α) :=
  (quota settings.limits).process ((screening settings.validation).process (shielded routes))

def behindCredential (settings : Settings) (resolver : Resolver)
    (routes : Handler (Exchange α)) : Handler (Exchange α) :=
  (credential settings.auth resolver).process (behindQuota settings routes)

theorem protect_eq (settings : Settings) (resolver : Resolver) (routes : Handler (Exchange α)) :
    protect settings resolver routes = (envelope settings).process
      ((journal settings.logging).process (behindCredential settings resolver routes)) := rfl

theorem state_shielded (routes : Handler (Exchange α)) (request : Request)
    (exchange : Exchange α) : (shielded routes request exchange).2 = (routes request exchange).2 := by
  unfold shielded
  split
  · next h => rw [h]
  · next h =>
      rw [h]
      rfl

theorem noteBot_eq (settings : LogSettings) (request : Request) (exchange : Exchange α) :
    noteBot settings request exchange =
      { exchange with context := (noteBot settings request exchange).context } := by
  unfold noteBot
  split
  · split <;> rfl
  · rfl

theorem caller_noteBot (settings : LogSettings) (request : Request) (exchange : Exchange α) :
    (noteBot settings request exchange).context.caller = exchange.context.caller := by
  unfold noteBot
  split
  · split <;> rfl
  · rfl

theorem attacks_noteBot (settings : LogSettings) (request : Request) (exchange : Exchange α) :
    (noteBot settings request exchange).context.events.filter Event.isAttack =
      exchange.context.events.filter Event.isAttack := by
  unfold noteBot
  split
  · split
    · exact Exchange.attacks_note _ rfl
    · rfl
  · rfl

-- The name under which a caller is counted, who may be nobody in particular.
def countedAs (settings : LimitSettings) (request : Request) : Option Verified → String
  | none => request.anonymousIdentity settings.behindProxy
  | some verified => "user:" ++ verified.identity.userId

-- A request that the journal hands on, and whose caller is let in.
structure Enters (settings : Settings) (resolver : Resolver) (request : Request)
    (exchange : Exchange α) (read : Request) (caller : Option Verified) (backend : Backend) :
    Prop where
  taken : ∃ noted, taken settings.logging request = .ok (read, noted)
  known : Known settings.auth resolver exchange.clocks read exchange.backend caller backend

def Blacklisted (settings : LimitSettings) (read : Request) (caller : Option Verified) : Prop :=
  settings.isBlacklisted (read.anonymousIdentity settings.behindProxy) = true ∨
    settings.isBlacklisted (countedAs settings read caller) = true

-- What the limiter answers on a caller.
def Answers (settings : Settings) (exchange : Exchange α) (read : Request)
    (caller : Option Verified) (backend : Backend) (decision : Decision) : Prop :=
  (Limiter.check settings.limits exchange.clocks.storing exchange.clocks.counting
    (countedAs settings.limits read caller) backend).1 = .ok decision

-- The state behind each stage

theorem core_protect_of_taken {noted : Option Json}
    (h : taken settings.logging request = .ok (read, noted)) (routes : Handler (Exchange α))
    (exchange : Exchange α) : (protect settings resolver routes request exchange).2.core =
      (behindCredential settings resolver routes read
        (noteBot settings.logging request exchange)).2.core := by
  rw [protect_eq, core_envelope, core_journal_of_taken h]

theorem protect_congr {noted : Option Json}
    (h : taken settings.logging request = .ok (read, noted)) {validation : ValidationSettings}
    {routes others : Handler (Exchange α)}
    (hsame : behindCredential { settings with validation } resolver others read
        (noteBot settings.logging request exchange) =
      behindCredential settings resolver routes read
        (noteBot settings.logging request exchange)) :
    protect { settings with validation } resolver others request exchange =
      protect settings resolver routes request exchange := by
  unfold taken at h
  simp only [protect_eq, envelope, journal, h, hsame]
  rfl

-- The exchange of a caller who is let in.
def entered (settings : Settings) (request : Request) (caller : Option Verified)
    (backend : Backend) (exchange : Exchange α) : Exchange α :=
  admitted caller backend (noteBot settings.logging request exchange)

theorem behindCredential_of_enters
    (h : Enters settings resolver request exchange read caller backend)
    (routes : Handler (Exchange α)) :
    behindCredential settings resolver routes read (noteBot settings.logging request exchange) =
      behindQuota settings routes read (entered settings request caller backend exchange) := by
  refine credential_of_known ?_ _
  rw [noteBot_eq]
  exact h.known

theorem backend_entered : (entered settings request caller backend exchange).backend = backend := by
  cases caller with
  | none => rfl
  | some verified => rfl

theorem clocks_entered :
    (entered settings request caller backend exchange).clocks = exchange.clocks := by
  rw [entered, noteBot_eq]
  cases caller with
  | none => rfl
  | some verified => rfl

theorem routes_entered :
    (entered settings request caller backend exchange).routes = exchange.routes := by
  rw [entered, noteBot_eq]
  cases caller with
  | none => rfl
  | some verified => rfl

theorem attacks_entered :
    (entered settings request caller backend exchange).context.events.filter Event.isAttack =
      exchange.context.events.filter Event.isAttack := by
  rw [← attacks_noteBot settings.logging request exchange]
  cases caller with
  | none => rfl
  | some verified =>
      simp only [entered, admitted, admitCaller, Context.attach]
      split <;> rfl

-- Who has just been let in is counted under their own name.
theorem limitIdentity_entered (hfresh : exchange.context.caller = none) :
    limitIdentity settings.limits read (entered settings request caller backend exchange).context =
      countedAs settings.limits read caller := by
  rw [← caller_noteBot settings.logging request exchange] at hfresh
  cases caller with
  | none => simp [entered, admitted, limitIdentity, Context.identity, hfresh, countedAs]
  | some verified =>
      simp [entered, admitted, admitCaller, Context.attach, limitIdentity, Context.identity,
        countedAs, Exchange.addField, Context.addField, hfresh]

theorem decided_of_blacklisted {limits : LimitSettings} (h : Blacklisted limits read caller)
    (clocks : Clocks) (backend : Backend) :
    decided limits clocks read (countedAs limits read caller) backend =
      (.ok .blocked, backend) := by
  unfold decided
  split
  · rfl
  · next haddress =>
      rw [Limiter.check, if_pos (h.resolve_left haddress)]

theorem decided_of_not_blacklisted {limits : LimitSettings} (h : ¬Blacklisted limits read caller)
    (clocks : Clocks) (backend : Backend) :
    decided limits clocks read (countedAs limits read caller) backend =
      Limiter.check limits clocks.storing clocks.counting (countedAs limits read caller)
        backend := by
  rw [decided, if_neg fun haddress => h (.inl haddress)]

theorem decided_of_answers {decision : Decision} (hlisted : ¬Blacklisted settings.limits read caller)
    (h : Answers settings exchange read caller backend decision) :
    ∃ after, decided settings.limits exchange.clocks read (countedAs settings.limits read caller)
      backend = (.ok decision, after) :=
  ⟨_, (decided_of_not_blacklisted hlisted _ _).trans (Prod.ext h rfl)⟩

theorem decided_entered (hfresh : exchange.context.caller = none) :
    decided settings.limits (entered settings request caller backend exchange).clocks read
        (limitIdentity settings.limits read
          (entered settings request caller backend exchange).context)
        (entered settings request caller backend exchange).backend =
      decided settings.limits exchange.clocks read (countedAs settings.limits read caller)
        backend := by
  rw [clocks_entered, limitIdentity_entered hfresh, backend_entered]

-- Where a request stops

-- What is answered does not hang on the routes: they are not reached. The store is left like this.
structure Stopped (settings : Settings) (resolver : Resolver) (request : Request)
    (exchange : Exchange α) (after : Backend) : Prop where
  alike : ∀ routes others : Handler (Exchange α),
    protect settings resolver others request exchange =
      protect settings resolver routes request exchange
  backend : ∀ routes : Handler (Exchange α),
    (protect settings resolver routes request exchange).2.backend = after
  unrun : ∀ routes : Handler (Exchange α),
    (protect settings resolver routes request exchange).2.routes = exchange.routes

theorem stopped_of_answer {noted : Option Json} {after : Backend}
    (htaken : taken settings.logging request = .ok (read, noted))
    {answer : Except Crash Response × Exchange α}
    (hanswer : ∀ routes : Handler (Exchange α), behindCredential settings resolver routes read
      (noteBot settings.logging request exchange) = answer)
    (hbackend : answer.2.backend = after) (hroutes : answer.2.routes = exchange.routes) :
    Stopped settings resolver request exchange after := by
  have hcore : ∀ routes : Handler (Exchange α),
      (protect settings resolver routes request exchange).2.core = answer.2.core := by
    intro routes
    rw [core_protect_of_taken htaken, hanswer]
  refine ⟨fun routes others => ?_, fun routes => ?_, fun routes => ?_⟩
  · exact protect_congr htaken ((hanswer others).trans (hanswer routes).symm)
  · exact (congrArg (·.2.1) (hcore routes)).trans hbackend
  · exact (congrArg (·.2.2) (hcore routes)).trans hroutes

theorem stopped_untaken {failure : Failure} (h : taken settings.logging request = .error failure)
    (exchange : Exchange α) : Stopped settings resolver request exchange exchange.backend := by
  have hcore : ∀ routes : Handler (Exchange α),
      (protect settings resolver routes request exchange).2.core =
        (noteBot settings.logging request exchange).core := by
    intro routes
    rw [protect_eq, core_envelope, core_journal_of_refused h]
  rw [noteBot_eq] at hcore
  refine ⟨fun routes others => ?_, fun routes => ?_, fun routes => ?_⟩
  · unfold taken at h
    simp only [protect_eq, envelope, journal, h]
  · exact congrArg (·.2.1) (hcore routes)
  · exact congrArg (·.2.2) (hcore routes)

theorem stopped_unknown {noted : Option Json}
    (htaken : taken settings.logging request = .ok (read, noted))
    (h : ¬∃ caller after, Known settings.auth resolver exchange.clocks read exchange.backend
      caller after) : Stopped settings resolver request exchange
        (authenticate settings.auth resolver exchange.clocks read exchange.backend).2 := by
  have hnoted : authenticate settings.auth resolver
      (noteBot settings.logging request exchange).clocks read
      (noteBot settings.logging request exchange).backend =
        (none, (authenticate settings.auth resolver exchange.clocks read exchange.backend).2) := by
    rw [noteBot_eq]
    exact authenticate_of_unknown h
  obtain ⟨answer, hanswer, hbackend, hroutes⟩ := credential_of_refused hnoted
  rw [noteBot_eq] at hroutes
  exact stopped_of_answer htaken (fun routes => hanswer _) hbackend hroutes

section Decided

variable (hfresh : exchange.context.caller = none)
  (henters : Enters settings resolver request exchange read caller backend) {after : Backend}
include hfresh henters

-- Whoever the limiter does not let in gets an answer that does not hang on what lies behind it.
theorem answer_of_refused {outcome : Except Crash Decision}
    (hdecided : decided settings.limits exchange.clocks read
      (countedAs settings.limits read caller) backend = (outcome, after))
    (hout : ∀ decision, outcome = .ok decision → decision.letsIn = false) :
    ∃ answer : Except Crash Response × Exchange α,
      (∀ (validation : ValidationSettings) (routes : Handler (Exchange α)),
        behindCredential { settings with validation } resolver routes read
          (noteBot settings.logging request exchange) = answer) ∧
      answer.2.backend = after ∧ answer.2.routes = exchange.routes ∧
      answer.2.context.events.filter Event.isAttack =
        exchange.context.events.filter Event.isAttack := by
  have hentered : decided settings.limits
      (entered settings request caller backend exchange).clocks read
      (limitIdentity settings.limits read
        (entered settings request caller backend exchange).context)
      (entered settings request caller backend exchange).backend = (outcome, after) :=
    (decided_entered hfresh).trans hdecided
  obtain ⟨answer, hanswer, hbackend, hroutes, hevents⟩ := quota_of_refused hentered hout
  refine ⟨answer, fun validation routes => ?_, hbackend, hroutes.trans routes_entered,
    hevents.trans attacks_entered⟩
  have hother : Enters { settings with validation } resolver request exchange read caller backend :=
    ⟨henters.taken, henters.known⟩
  rw [behindCredential_of_enters hother, behindQuota]
  exact hanswer _

theorem stopped_refused {outcome : Except Crash Decision}
    (hdecided : decided settings.limits exchange.clocks read
      (countedAs settings.limits read caller) backend = (outcome, after))
    (hout : ∀ decision, outcome = .ok decision → decision.letsIn = false) :
    Stopped settings resolver request exchange after := by
  obtain ⟨noted, htaken⟩ := henters.taken
  obtain ⟨answer, hanswer, hbackend, hroutes, -⟩ := answer_of_refused hfresh henters hdecided hout
  exact stopped_of_answer htaken (hanswer settings.validation) hbackend hroutes

variable {decision : Decision} (hdecided : decided settings.limits exchange.clocks read
    (countedAs settings.limits read caller) backend = (.ok decision, after))
  (hin : decision.letsIn = true)
include hdecided hin

-- Whoever it lets in comes before the validation.
theorem behindCredential_of_letsIn :
    ∃ (counted : Exchange α) (told : Except Crash Response → Except Crash Response),
      counted.backend = after ∧ counted.routes = exchange.routes ∧
      ∀ routes : Handler (Exchange α),
        behindCredential settings resolver routes read (noteBot settings.logging request exchange) =
          Prod.map told id
            ((screening settings.validation).process (shielded routes) read counted) := by
  obtain ⟨told, hquota⟩ := quota_of_letsIn (α := α) ((decided_entered hfresh).trans hdecided) hin
  have hcore := Exchange.core_foldl { entered settings request caller backend exchange with
    backend := after } Exchange.core_raise decision.counters
  refine ⟨_, told, congrArg (·.2.1) hcore, (congrArg (·.2.2) hcore).trans routes_entered,
    fun routes => ?_⟩
  rw [behindCredential_of_enters henters, behindQuota, hquota]

theorem stopped_invalid
    (hinvalid : ¬∃ body validated, Screens settings.validation read body validated) :
    Stopped settings resolver request exchange after := by
  obtain ⟨noted, htaken⟩ := henters.taken
  obtain ⟨counted, told, hstore, hbefore, hbehind⟩ :=
    behindCredential_of_letsIn hfresh henters hdecided hin
  obtain ⟨answer, hanswer, hbackend, hroutes⟩ := screening_of_refused hinvalid counted
  have hsame : ∀ routes : Handler (Exchange α),
      behindCredential settings resolver routes read (noteBot settings.logging request exchange) =
        Prod.map told id answer := by
    intro routes
    rw [hbehind, hanswer]
  exact stopped_of_answer htaken hsame (hbackend.trans hstore) (hroutes.trans hbefore)

-- Whoever is valid comes before the routes, and what these leave behind is left.
theorem core_of_valid {body : Bytes} {validated : Validated}
    (hscreens : Screens settings.validation read body validated) :
    ∃ before : Exchange α, before.routes = exchange.routes ∧
      ∀ routes : Handler (Exchange α),
        (protect settings resolver routes request exchange).2.core =
          (routes (screened read body validated) before).2.core := by
  obtain ⟨noted, htaken⟩ := henters.taken
  obtain ⟨counted, told, -, hbefore, hbehind⟩ :=
    behindCredential_of_letsIn hfresh henters hdecided hin
  refine ⟨noteValidated validated counted, (routes_noteValidated _ _).trans hbefore,
    fun routes => ?_⟩
  rw [core_protect_of_taken htaken, hbehind, screening_of_screens hscreens]
  exact congrArg Exchange.core (state_shielded ..)

end Decided

end RequestGuard.Guard
