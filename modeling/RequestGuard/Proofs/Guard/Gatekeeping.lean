import RequestGuard.Proofs.Guard.Passage

namespace RequestGuard.Guard

variable {α : Type} {settings : Settings} {resolver : Resolver} {request read : Request}
  {exchange : Exchange α} {caller : Option Verified} {backend : Backend}

-- A request that every stage hands on.
def Admitted (settings : Settings) (resolver : Resolver) (request : Request)
    (exchange : Exchange α) : Prop :=
  ∃ read caller backend, Enters settings resolver request exchange read caller backend ∧
    ¬Blacklisted settings.limits read caller ∧
    (∃ decision, Answers settings exchange read caller backend decision ∧
      decision.letsIn = true) ∧
    ∃ body validated, Screens settings.validation read body validated

-- A request that the journal refuses, whose caller is not known, or whose caller is blacklisted.
inductive TurnedAway (settings : Settings) (resolver : Resolver) (request : Request)
    (exchange : Exchange α) : Prop
  | unread {failure : Failure} : taken settings.logging request = .error failure →
      TurnedAway settings resolver request exchange
  | unknown {read : Request} {noted : Option Json} :
      taken settings.logging request = .ok (read, noted) →
      (¬∃ caller after, Known settings.auth resolver exchange.clocks read exchange.backend
        caller after) → TurnedAway settings resolver request exchange
  | blacklisted {read : Request} {caller : Option Verified} {backend : Backend} :
      Enters settings resolver request exchange read caller backend →
      Blacklisted settings.limits read caller → TurnedAway settings resolver request exchange

theorem enters_of_not_turnedAway (h : ¬TurnedAway settings resolver request exchange) :
    ∃ read caller backend, Enters settings resolver request exchange read caller backend ∧
      ¬Blacklisted settings.limits read caller := by
  cases htaken : taken settings.logging request with
  | error failure => exact absurd (.unread htaken) h
  | ok pair =>
      obtain ⟨read, noted⟩ := pair
      by_cases hknown : ∃ caller after,
          Known settings.auth resolver exchange.clocks read exchange.backend caller after
      · obtain ⟨caller, backend, hknown⟩ := hknown
        have henters : Enters settings resolver request exchange read caller backend :=
          ⟨⟨noted, htaken⟩, hknown⟩
        exact ⟨read, caller, backend, henters, fun hlisted => h (.blacklisted henters hlisted)⟩
      · exact absurd (.unknown htaken hknown) h

-- Whoever enters finds the store as it was, as far as it can be seen.
theorem live_of_enters (h : Enters settings resolver request exchange read caller backend)
    {later : Nat} (hlater : exchange.clocks.storing ≤ later) (key : String) :
    backend.store.live later key = exchange.backend.store.live later key := by
  have hlive := live_authenticate hlater settings.auth resolver read exchange.backend key
  rwa [known_iff.mp h.known] at hlive

theorem stopped_turnedAway (hfresh : exchange.context.caller = none)
    (h : TurnedAway settings resolver request exchange) :
    ∃ after, Stopped settings resolver request exchange after ∧
      ∀ later, exchange.clocks.storing ≤ later → ∀ key,
        after.store.live later key = exchange.backend.store.live later key := by
  cases h with
  | unread htaken => exact ⟨_, stopped_untaken htaken exchange, fun _ _ _ => rfl⟩
  | unknown htaken hunknown =>
      exact ⟨_, stopped_unknown htaken hunknown,
        fun later hlater key => live_authenticate hlater _ _ _ _ key⟩
  | blacklisted henters hlisted =>
      refine ⟨_, stopped_refused hfresh henters (decided_of_blacklisted hlisted _ _)
        (fun decision hdecision => ?_), fun later hlater => live_of_enters henters hlater⟩
      cases hdecision
      rfl

theorem stopped_of_not_admitted (hfresh : exchange.context.caller = none)
    (h : ¬Admitted settings resolver request exchange) :
    ∃ after, Stopped settings resolver request exchange after := by
  by_cases haway : TurnedAway settings resolver request exchange
  · obtain ⟨after, hstopped, -⟩ := stopped_turnedAway hfresh haway
    exact ⟨after, hstopped⟩
  obtain ⟨read, caller, backend, henters, hlisted⟩ := enters_of_not_turnedAway haway
  cases hdecided : decided settings.limits exchange.clocks read
      (countedAs settings.limits read caller) backend with
  | mk outcome after =>
      by_cases hin : ∃ decision, outcome = .ok decision ∧ decision.letsIn = true
      · obtain ⟨decision, rfl, hin⟩ := hin
        have hanswers : Answers settings exchange read caller backend decision := by
          rw [decided_of_not_blacklisted hlisted] at hdecided
          exact congrArg Prod.fst hdecided
        refine ⟨after, stopped_invalid hfresh henters hdecided hin fun hscreens => h ?_⟩
        exact ⟨read, caller, backend, henters, hlisted, ⟨decision, hanswers, hin⟩, hscreens⟩
      · refine ⟨after, stopped_refused hfresh henters hdecided fun decision hok => ?_⟩
        exact Bool.eq_false_iff.mpr fun hletsIn => hin ⟨decision, hok, hletsIn⟩

-- The routes

-- Any routes are run on one request, and what they leave behind is left.
def Runs (settings : Settings) (resolver : Resolver) (request : Request)
    (exchange : Exchange α) : Prop :=
  ∃ (handed : Request) (before : Exchange α), before.routes = exchange.routes ∧
    ∀ routes : Handler (Exchange α),
      (protect settings resolver routes request exchange).2.core = (routes handed before).2.core

theorem runs_of_admitted (hfresh : exchange.context.caller = none)
    (h : Admitted settings resolver request exchange) :
    Runs settings resolver request exchange := by
  obtain ⟨read, caller, backend, henters, hlisted, ⟨decision, hanswers, hin⟩, body, validated,
    hscreens⟩ := h
  obtain ⟨after, hdecided⟩ := decided_of_answers hlisted hanswers
  exact ⟨screened read body validated, core_of_valid hfresh henters hdecided hin hscreens⟩

-- Routes that count how often they are run.
def Ticks (ticks : α → Nat) (routes : Handler (Exchange α)) : Prop :=
  ∀ request exchange, ticks (routes request exchange).2.routes = ticks exchange.routes + 1

theorem ticks_of_runs (h : Runs settings resolver request exchange) {ticks : α → Nat}
    {routes : Handler (Exchange α)} (hticks : Ticks ticks routes) :
    ticks (protect settings resolver routes request exchange).2.routes =
      ticks exchange.routes + 1 := by
  obtain ⟨handed, before, hbefore, hcore⟩ := h
  have hroutes : (protect settings resolver routes request exchange).2.routes =
      (routes handed before).2.routes := congrArg (·.2.2) (hcore routes)
  rw [hroutes, hticks, hbefore]

-- The limiter

-- A caller whom the limiter does not let in.
def Barred (settings : Settings) (exchange : Exchange α) (read : Request)
    (caller : Option Verified) (backend : Backend) : Prop :=
  Blacklisted settings.limits read caller ∨
    ∃ decision, Answers settings exchange read caller backend decision ∧ decision.letsIn = false

theorem decided_of_barred (h : Barred settings exchange read caller backend) :
    ∃ decision after, decided settings.limits exchange.clocks read
      (countedAs settings.limits read caller) backend = (.ok decision, after) ∧
        decision.letsIn = false := by
  by_cases hlisted : Blacklisted settings.limits read caller
  · exact ⟨_, _, decided_of_blacklisted hlisted _ _, rfl⟩
  · obtain ⟨decision, hanswers, hin⟩ := h.resolve_left hlisted
    obtain ⟨after, hdecided⟩ := decided_of_answers hlisted hanswers
    exact ⟨decision, after, hdecided, hin⟩

-- Nobody asks for the body of a caller who is barred: what is answered, and all that is left
-- behind, is the same under any validation and before any routes, and no attack is noted.
theorem unvalidated_of_barred (hfresh : exchange.context.caller = none)
    (henters : Enters settings resolver request exchange read caller backend)
    (h : Barred settings exchange read caller backend) (validation : ValidationSettings)
    (routes others : Handler (Exchange α)) :
    protect { settings with validation } resolver others request exchange =
        protect settings resolver routes request exchange ∧
      (protect settings resolver routes request exchange).2.context.events.filter Event.isAttack =
        exchange.context.events.filter Event.isAttack := by
  obtain ⟨noted, htaken⟩ := henters.taken
  obtain ⟨decision, after, hdecided, hin⟩ := decided_of_barred h
  obtain ⟨answer, hanswer, -, -, hevents⟩ := answer_of_refused hfresh henters hdecided
    (fun _ hdecision => Except.ok.inj hdecision ▸ hin)
  refine ⟨protect_congr htaken ((hanswer validation others).trans
    (hanswer settings.validation routes).symm), ?_⟩
  have hcore : (protect settings resolver routes request exchange).2.core = answer.2.core := by
    rw [core_protect_of_taken htaken, hanswer settings.validation routes]
  exact (congrArg (·.1.events.filter Event.isAttack) hcore).trans hevents

-- The store answers every count of the caller.
def Works (settings : Settings) (exchange : Exchange α) (read : Request)
    (caller : Option Verified) (backend : Backend) : Prop :=
  ∃ counts after, Limiter.countAll (countedAs settings.limits read caller)
    exchange.clocks.storing exchange.clocks.counting settings.limits.windows backend =
      (.done counts, after)

-- It does so if it can be reached and holds numbers that have room.
theorem works_of_countable
    (henters : Enters settings resolver request exchange read caller backend)
    (h : Limiter.Countable settings.limits.windows (countedAs settings.limits read caller)
      exchange.clocks.storing exchange.clocks.counting exchange.backend) :
    Works settings exchange read caller backend := by
  refine Limiter.countAll_done settings.limits.names_nodup ⟨?_, fun window hwindow => ?_, h.room⟩
  · have hlink := link_authenticate settings.auth resolver exchange.clocks read exchange.backend
    rw [known_iff.mp henters.known] at hlink
    exact hlink.trans h.working
  · obtain ⟨before, hmax, hreads⟩ := h.numbers window hwindow
    exact ⟨before, hmax, (Store.reads_congr (live_of_enters henters (Nat.le_refl _) _)).trans hreads⟩

-- A request that is found invalid has been counted before.
theorem counted_of_invalid (hfresh : exchange.context.caller = none)
    (henters : Enters settings resolver request exchange read caller backend)
    (hlisted : ¬Blacklisted settings.limits read caller)
    (hwhite : settings.limits.isWhitelisted (countedAs settings.limits read caller) = false)
    (hworks : Works settings exchange read caller backend) {decision : Decision}
    (hanswers : Answers settings exchange read caller backend decision)
    (hin : decision.letsIn = true)
    (hinvalid : ¬∃ body validated, Screens settings.validation read body validated)
    (routes : Handler (Exchange α)) :
    Limiter.CountedOnce settings.limits.windows (countedAs settings.limits read caller)
      exchange.clocks.storing exchange.clocks.counting exchange.backend.store
      (protect settings resolver routes request exchange).2.backend.store := by
  obtain ⟨counts, after, hcounts⟩ := hworks
  have hdecided : decided settings.limits exchange.clocks read
      (countedAs settings.limits read caller) backend = (.ok decision, after) := by
    have hnamed : ¬settings.limits.isBlacklisted (countedAs settings.limits read caller) = true :=
      fun h => hlisted (.inr h)
    unfold Answers at hanswers
    rw [decided_of_not_blacklisted hlisted]
    simp only [Limiter.check, if_neg hnamed, hwhite, hcounts] at hanswers ⊢
    exact Prod.ext hanswers rfl
  rw [(stopped_invalid hfresh henters hdecided hin hinvalid).backend routes]
  exact (Limiter.countAll_of_done settings.limits.names_nodup hcounts).congr
    (live_of_enters henters (Nat.le_refl _))

-- The stages in their order

theorem gatekeeping (hfresh : exchange.context.caller = none) (routes : Handler (Exchange α)) :
    -- a request that every stage hands on runs the routes once, and no other reaches them
    ((Admitted settings resolver request exchange → Runs settings resolver request exchange) ∧
      (¬Admitted settings resolver request exchange →
        ∃ after, Stopped settings resolver request exchange after) ∧
      ∀ ticks : α → Nat, Ticks ticks routes →
        (Admitted settings resolver request exchange →
          ticks (protect settings resolver routes request exchange).2.routes =
            ticks exchange.routes + 1) ∧
        (¬Admitted settings resolver request exchange →
          ticks (protect settings resolver routes request exchange).2.routes =
            ticks exchange.routes)) ∧
    -- who is turned away leaves the store as it was
    (TurnedAway settings resolver request exchange →
      ∀ later, exchange.clocks.storing ≤ later → ∀ key,
        (protect settings resolver routes request exchange).2.backend.store.live later key =
          exchange.backend.store.live later key) ∧
    -- who is barred is not validated
    (∀ read caller backend, Enters settings resolver request exchange read caller backend →
      Barred settings exchange read caller backend →
      ∀ (validation : ValidationSettings) (others : Handler (Exchange α)),
        protect { settings with validation } resolver others request exchange =
            protect settings resolver routes request exchange ∧
          (protect settings resolver routes request exchange).2.context.events.filter
            Event.isAttack = exchange.context.events.filter Event.isAttack) ∧
    -- who is invalid has been counted once
    (∀ read caller backend decision,
      Enters settings resolver request exchange read caller backend →
      ¬Blacklisted settings.limits read caller →
      settings.limits.isWhitelisted (countedAs settings.limits read caller) = false →
      Works settings exchange read caller backend →
      Answers settings exchange read caller backend decision → decision.letsIn = true →
      (¬∃ body validated, Screens settings.validation read body validated) →
      Limiter.CountedOnce settings.limits.windows (countedAs settings.limits read caller)
        exchange.clocks.storing exchange.clocks.counting exchange.backend.store
        (protect settings resolver routes request exchange).2.backend.store) := by
  refine ⟨⟨runs_of_admitted hfresh, stopped_of_not_admitted hfresh, fun ticks hticks => ⟨?_, ?_⟩⟩,
    ?_, ?_, ?_⟩
  · exact fun hadmitted => ticks_of_runs (runs_of_admitted hfresh hadmitted) hticks
  · intro hrefused
    obtain ⟨after, hstopped⟩ := stopped_of_not_admitted hfresh hrefused
    rw [hstopped.unrun routes]
  · intro haway later hlater key
    obtain ⟨after, hstopped, hlive⟩ := stopped_turnedAway hfresh haway
    rw [hstopped.backend routes, hlive later hlater]
  · intro read caller backend henters hbarred validation others
    exact unvalidated_of_barred hfresh henters hbarred validation routes others
  · intro read caller backend decision henters hlisted hwhite hworks hanswers hin hinvalid
    exact counted_of_invalid hfresh henters hlisted hwhite hworks hanswers hin hinvalid routes

-- An exchange before anything has happened, and routes that only count.

def unused : Exchange Nat where
  context := { requestId := "", receivedAt := "" }
  backend := { store := ⟨[], 0, List.nodup_nil⟩ }
  clocks := ⟨0, 0, 0, ""⟩
  routes := 0

def tallying : Handler (Exchange Nat) :=
  fun _ exchange => (.ok (.bare 200), { exchange with routes := exchange.routes + 1 })

theorem not_blacklisted : ¬Blacklisted {} read caller := by
  simp [Blacklisted, LimitSettings.isBlacklisted]

theorem answers_unused (h : read.anonymousIdentity false = "ip:unknown") :
    Answers {} unused read none {} (.allowed 60 59) := by
  have hcheck : (Limiter.check {} 0 0 "ip:unknown" {}).1 = .ok (.allowed 60 59) := by
    decide +kernel
  rwa [← h] at hcheck

theorem gatekeeping_of_script :
    unused.context.caller = none ∧
      (protect {} .ofClaims tallying { path := "/health" } unused).2.routes = 1 ∧
      Limiter.CountedOnce ({} : LimitSettings).windows "ip:unknown" 0 0 {}
        (protect {} .ofClaims tallying { path := "/health", query := some "q=<script>" }
          unused).2.backend.store := by
  have henters : ∀ query, Enters {} .ofClaims { path := "/health", query } unused
      { path := "/health", query } none {} :=
    fun query => ⟨⟨none, rfl⟩, .nobody rfl rfl⟩
  have hworks : Works {} unused { path := "/health", query := some "q=<script>" } none {} := by
    refine works_of_countable (henters _) ⟨rfl, fun window _ => ⟨0, by decide, ?_⟩, ?_⟩
    · show readWord "0" = some 0
      decide +kernel
    · decide +kernel
  refine ⟨rfl, ?_, ?_⟩
  · refine ((gatekeeping rfl tallying).1.2.2 id fun _ _ => rfl).1 ?_
    exact ⟨_, none, {}, henters none, not_blacklisted, ⟨_, answers_unused rfl, rfl⟩, [], {},
      rfl, rfl, rfl⟩
  · refine (gatekeeping rfl tallying).2.2.2 _ none {} _ (henters _) not_blacklisted rfl hworks
      (answers_unused rfl) rfl ?_
    rintro ⟨body, validated, -, hbody, hvalid⟩
    cases hbody
    have hrefused : (validate {} none (some "q=<script>") []).toOption.isSome = false := by
      decide +kernel
    rw [show validate {} none (some "q=<script>") [] = .ok validated from hvalid] at hrefused
    contradiction

-- A request that says it is long is believed before anything of it is read.

def overstated : Request where
  path := "/health"
  headers := [("content-length", bytesOf "99999999999")]

theorem unrun_of_overstated :
    Enters {} .ofClaims overstated unused overstated none {} ∧
      ¬Blacklisted {} overstated none ∧
      Answers {} unused overstated none {} (.allowed 60 59) ∧
      overstated.body = .whole [] ∧
      validate {} (overstated.headers.text? "content-type") overstated.query [] = .ok {} ∧
      (protect {} .ofClaims tallying overstated unused).2.routes = unused.routes :=
  ⟨⟨⟨none, rfl⟩, .nobody (by decide +kernel) rfl⟩, not_blacklisted, answers_unused rfl, rfl, rfl,
    by decide +kernel⟩

end RequestGuard.Guard
