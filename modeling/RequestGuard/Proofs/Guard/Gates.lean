import RequestGuard.Guard.Standard
import RequestGuard.Proofs.Guard.Screening
import RequestGuard.Proofs.Limiter.Charging

namespace RequestGuard

-- What a request finds out and changes: the stages further out leave it as it is and only write
-- records and count.
def Exchange.core (exchange : Exchange α) : Context × Backend × α :=
  (exchange.context, exchange.backend, exchange.routes)

-- What a validation reports.
def Event.isAttack : Event → Bool
  | scriptDetected _ => true
  | queryDetected _ => true
  | _ => false

def Decision.letsIn : Decision → Bool
  | allowed .. => true
  | bypassed => true
  | degraded => true
  | _ => false

-- Only what is answered is changed.
theorem Handler.map_eq (f : Response → Response) (handler : Handler σ) (request : Request)
    (state : σ) :
    handler.map f request state = Prod.map (Except.map f) id (handler request state) := by
  unfold Handler.map
  split
  · next h => rw [h]; rfl
  · next h => rw [h]; rfl

namespace Exchange

variable (exchange : Exchange α)

@[simp] theorem core_write (sensitive : List String) (record : Record) :
    (exchange.write sensitive record).core = exchange.core := rfl

@[simp] theorem core_raise (counter : Counter) : (exchange.raise counter).core = exchange.core := rfl

theorem core_foldl {step : Exchange α → β → Exchange α}
    (h : ∀ exchange b, (step exchange b).core = exchange.core) (bs : List β) :
    (bs.foldl step exchange).core = exchange.core := by
  induction bs generalizing exchange with
  | nil => rfl
  | cons b bs ih => rw [List.foldl_cons, ih, h]

theorem attacks_note {event : Event} (h : event.isAttack = false) :
    (exchange.note event).context.events.filter Event.isAttack =
      exchange.context.events.filter Event.isAttack := by
  simp [note, Context.record, List.filter_append, h]

end Exchange

namespace Guard

variable {α : Type} {request read : Request} {exchange : Exchange α}

-- The outer stages

theorem core_enveloped (settings : Settings) (request : Request) (response : Response)
    (exchange : Exchange α) : (enveloped settings request response exchange).2.core =
      exchange.core := by
  unfold enveloped
  split
  · rfl
  · split
    · rfl
    · rfl

theorem core_envelope (settings : Settings) (next : Handler (Exchange α)) (request : Request)
    (exchange : Exchange α) :
    ((envelope settings).process next request exchange).2.core = (next request exchange).2.core := by
  simp only [envelope]
  exact core_enveloped ..

theorem core_concluded (settings : LogSettings) (request : Request) (body : Option Json)
    (response : Response) (exchange : Exchange α) :
    (concluded settings request body response exchange).2.core = exchange.core := by
  simp only [concluded]
  rw [Exchange.core_foldl _ (fun exchange record => Exchange.core_write exchange _ record),
    Exchange.core_foldl _ Exchange.core_raise]

-- The request as the journal hands it on, unless it refuses the body.
def taken (settings : LogSettings) (request : Request) : Except Failure (Request × Option Json) :=
  if settings.isExcluded request.path then .ok (request, none) else excerpt settings request

theorem core_journal_of_refused {settings : LogSettings} {failure : Failure}
    (h : taken settings request = .error failure) (next : Handler (Exchange α))
    (exchange : Exchange α) : ((journal settings).process next request exchange).2.core =
      (noteBot settings request exchange).core := by
  unfold taken at h
  simp only [journal, h, Exchange.refuse]
  exact core_concluded ..

theorem core_journal_of_taken {settings : LogSettings} {noted : Option Json}
    (h : taken settings request = .ok (read, noted)) (next : Handler (Exchange α))
    (exchange : Exchange α) : ((journal settings).process next request exchange).2.core =
      (next read (noteBot settings request exchange)).2.core := by
  unfold taken at h
  simp only [journal, h]
  cases next read (noteBot settings request exchange) with
  | mk outcome after =>
      cases outcome with
      | error crash => rfl
      | ok response => exact core_concluded ..

-- Authentication

-- Who calls, if they may, and the store behind the look at the revocation list. Without a
-- credential nobody in particular does.
def authenticate (settings : AuthSettings) (resolver : Resolver) (clocks : Clocks)
    (request : Request) (backend : Backend) : Option (Option Verified) × Backend :=
  if !request.headers.contains "authorization" then
    (if settings.isPublic request.path then some none else none, backend)
  else
    match (request.headers.text? "authorization").bind bearer? with
    | none => (none, backend)
    | some token =>
      match Verifier.verify settings resolver clocks.expiring clocks.storing token backend with
      | (.ok (.ok verified), backend) => (some (some verified), backend)
      | (_, backend) => (none, backend)

-- A caller is let in without a credential on a public path, and else with one that is good.
inductive Known (settings : AuthSettings) (resolver : Resolver) (clocks : Clocks)
    (request : Request) (backend : Backend) : Option Verified → Backend → Prop
  | nobody : request.headers.contains "authorization" = false →
      settings.isPublic request.path = true →
      Known settings resolver clocks request backend none backend
  | bearer {token : String} {verified : Verified} {after : Backend} :
      request.headers.contains "authorization" = true →
      (request.headers.text? "authorization").bind bearer? = some token →
      Verifier.verify settings resolver clocks.expiring clocks.storing token backend =
        (.ok (.ok verified), after) →
      Known settings resolver clocks request backend (some verified) after

theorem known_iff {settings : AuthSettings} {resolver : Resolver} {clocks : Clocks}
    {backend after : Backend} {caller : Option Verified} :
    Known settings resolver clocks request backend caller after ↔
      authenticate settings resolver clocks request backend = (some caller, after) := by
  constructor
  · intro h
    cases h with
    | nobody habsent hopen => simp [authenticate, habsent, hopen]
    | bearer hpresent htoken hverify => simp [authenticate, hpresent, htoken, hverify]
  · intro h
    unfold authenticate at h
    split at h
    · next habsent =>
        split at h
        · next hopen =>
            cases h
            exact .nobody (by simpa using habsent) hopen
        · cases h
    · next hpresent =>
        split at h
        · cases h
        · next token htoken =>
            split at h
            · next verified last hverify =>
                cases h
                exact .bearer (by simpa using hpresent) htoken hverify
            · cases h

-- Whoever is not known is refused.
theorem authenticate_of_unknown {settings : AuthSettings} {resolver : Resolver} {clocks : Clocks}
    {backend : Backend}
    (h : ¬∃ caller after, Known settings resolver clocks request backend caller after) :
    authenticate settings resolver clocks request backend =
      (none, (authenticate settings resolver clocks request backend).2) := by
  refine Prod.ext ?_ rfl
  rw [Option.eq_none_iff_forall_ne_some]
  exact fun caller hcaller => h ⟨caller, _, known_iff.mpr (Prod.ext hcaller rfl)⟩

def admitted (caller : Option Verified) (backend : Backend) (exchange : Exchange α) : Exchange α :=
  match caller with
  | none => { exchange with backend }
  | some verified => admitCaller verified { exchange with backend }

variable {settings : AuthSettings} {resolver : Resolver} {backend : Backend}

theorem credential_of_known {caller : Option Verified}
    (h : Known settings resolver exchange.clocks request exchange.backend caller backend)
    (next : Handler (Exchange α)) : (credential settings resolver).process next request exchange =
      next request (admitted caller backend exchange) := by
  cases h with
  | nobody habsent hopen =>
      simp only [credential, habsent, hopen, Bool.not_false, if_true]
      rfl
  | bearer hpresent htoken hverify =>
      simp only [credential, hpresent, htoken, hverify, Bool.not_true, Bool.false_eq_true, if_false]
      rfl

-- A caller who is not let in gets an answer that does not hang on what lies behind.
theorem credential_of_refused
    (h : authenticate settings resolver exchange.clocks request exchange.backend =
      (none, backend)) : ∃ answer, (∀ next : Handler (Exchange α),
        (credential settings resolver).process next request exchange = answer) ∧
      answer.2.backend = backend ∧ answer.2.routes = exchange.routes := by
  unfold authenticate at h
  simp only [credential]
  split at h
  · next habsent =>
      simp only [if_pos habsent]
      obtain ⟨hpublic, rfl⟩ := Prod.mk.inj h
      split at hpublic
      · contradiction
      · next hclosed =>
          simp only [if_neg hclosed]
          exact ⟨_, fun _ => rfl, rfl, rfl⟩
  · next hpresent =>
      simp only [if_neg hpresent]
      cases htoken : (request.headers.text? "authorization").bind bearer? with
      | none =>
          simp only [htoken] at h ⊢
          obtain ⟨-, rfl⟩ := Prod.mk.inj h
          exact ⟨_, fun _ => rfl, rfl, rfl⟩
      | some token =>
          simp only [htoken] at h ⊢
          cases hverify : Verifier.verify settings resolver exchange.clocks.expiring
              exchange.clocks.storing token exchange.backend with
          | mk outcome after =>
              rw [hverify] at h
              match outcome with
              | .error crash =>
                  obtain ⟨-, rfl⟩ := Prod.mk.inj h
                  exact ⟨_, fun _ => rfl, rfl, rfl⟩
              | .ok (.ok verified) => simp at h
              | .ok (.error refusal) =>
                  obtain ⟨-, rfl⟩ := Prod.mk.inj h
                  refine ⟨_, fun _ => rfl, ?_, ?_⟩
                  · exact Exchange.backend_noteAll ..
                  · exact Exchange.routes_noteAll ..

-- Authentication does no more to the store than to look at the revocation list.

theorem backend_verify (settings : AuthSettings) (resolver : Resolver) (now storeNow : Nat)
    (token : String) (backend : Backend) :
    (Verifier.verify settings resolver now storeNow token backend).2 = backend ∨
      ∃ key, (Verifier.verify settings resolver now storeNow token backend).2 =
        (backend.contains storeNow key).2 := by
  unfold Verifier.verify
  split
  · exact .inl rfl
  · exact .inl rfl
  · next claims hclaims =>
      split
      · exact .inl rfl
      · refine .inr ⟨Credential.revocationKey (Credential.idOf token claims), ?_⟩
        simp only
        split <;> next hreply => rw [hreply]

theorem backend_authenticate (settings : AuthSettings) (resolver : Resolver) (clocks : Clocks)
    (request : Request) (backend : Backend) :
    (authenticate settings resolver clocks request backend).2 = backend ∨
      ∃ key, (authenticate settings resolver clocks request backend).2 =
        (backend.contains clocks.storing key).2 := by
  unfold authenticate
  split
  · exact .inl rfl
  · split
    · exact .inl rfl
    · next token htoken =>
        have hverify := backend_verify settings resolver clocks.expiring clocks.storing token backend
        split
        · next heq => rwa [heq] at hverify
        · next heq => rwa [heq] at hverify

theorem link_contains (backend : Backend) (now : Nat) (key : String) :
    (backend.contains now key).2.link = backend.link := by
  obtain ⟨link, store⟩ := backend
  cases link with
  | _ => rfl

theorem live_contains {now later : Nat} (hlater : now ≤ later) (backend : Backend)
    (key other : String) :
    (backend.contains now key).2.store.live later other = backend.store.live later other := by
  obtain ⟨link, store⟩ := backend
  cases link with
  | failing => rfl
  | _ => exact Store.live_contains store now key hlater other

theorem link_authenticate (settings : AuthSettings) (resolver : Resolver) (clocks : Clocks)
    (request : Request) (backend : Backend) :
    (authenticate settings resolver clocks request backend).2.link = backend.link := by
  rcases backend_authenticate settings resolver clocks request backend with h | ⟨key, h⟩
  · rw [h]
  · rw [h, link_contains]

theorem live_authenticate {clocks : Clocks} {later : Nat} (hlater : clocks.storing ≤ later)
    (settings : AuthSettings) (resolver : Resolver) (request : Request) (backend : Backend)
    (key : String) :
    (authenticate settings resolver clocks request backend).2.store.live later key =
      backend.store.live later key := by
  rcases backend_authenticate settings resolver clocks request backend with h | ⟨name, h⟩
  · rw [h]
  · rw [h, live_contains hlater]

-- The limiter

-- What is decided on a caller, and the store behind the counting. Whoever comes from a
-- blacklisted address is blocked.
def decided (settings : LimitSettings) (clocks : Clocks) (request : Request) (identity : String)
    (backend : Backend) : Except Crash Decision × Backend :=
  if settings.isBlacklisted (request.anonymousIdentity settings.behindProxy) then
    (.ok .blocked, backend)
  else Limiter.check settings clocks.storing clocks.counting identity backend

variable {limits : LimitSettings} {decision : Decision}

-- Whoever is let in goes on, and what comes back may be told their quota.
theorem quota_of_letsIn
    (h : decided limits exchange.clocks request (limitIdentity limits request exchange.context)
      exchange.backend = (.ok decision, backend)) (hin : decision.letsIn = true) :
    ∃ told, ∀ next : Handler (Exchange α), (quota limits).process next request exchange =
      Prod.map told id
        (next request (decision.counters.foldl Exchange.raise { exchange with backend })) := by
  unfold decided at h
  split at h
  · cases h
    contradiction
  · next haddress =>
      simp only [quota, if_neg haddress, h]
      cases decision with
      | allowed limit remaining => exact ⟨_, fun next => Handler.map_eq ..⟩
      | bypassed => exact ⟨id, fun next => rfl⟩
      | degraded => exact ⟨id, fun next => rfl⟩
      | _ => contradiction

-- Whoever is not let in gets an answer that does not hang on what lies behind.
theorem quota_of_refused {outcome : Except Crash Decision}
    (h : decided limits exchange.clocks request (limitIdentity limits request exchange.context)
      exchange.backend = (outcome, backend))
    (hout : ∀ decision, outcome = .ok decision → decision.letsIn = false) :
    ∃ answer, (∀ next : Handler (Exchange α),
        (quota limits).process next request exchange = answer) ∧
      answer.2.backend = backend ∧ answer.2.routes = exchange.routes ∧
      answer.2.context.events.filter Event.isAttack =
        exchange.context.events.filter Event.isAttack := by
  unfold decided at h
  simp only [quota]
  split at h
  · next haddress =>
      obtain ⟨-, rfl⟩ := Prod.mk.inj h
      simp only [if_pos haddress]
      exact ⟨_, fun _ => rfl, rfl, rfl, Exchange.attacks_note _ rfl⟩
  · next haddress =>
      simp only [if_neg haddress, h]
      match outcome with
      | .error crash => exact ⟨_, fun _ => rfl, rfl, rfl, rfl⟩
      | .ok decision =>
          have hin := hout decision rfl
          cases decision with
          | limited window count limit retryAfter =>
              exact ⟨_, fun _ => rfl, rfl, rfl, Exchange.attacks_note _ rfl⟩
          | blocked => exact ⟨_, fun _ => rfl, rfl, rfl, Exchange.attacks_note _ rfl⟩
          | _ => contradiction

end Guard

end RequestGuard
