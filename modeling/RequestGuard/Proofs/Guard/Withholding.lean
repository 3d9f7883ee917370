import RequestGuard.Proofs.Guard.Passage
import RequestGuard.Proofs.Guard.Writing
import RequestGuard.Proofs.Record.Fields
import RequestGuard.Proofs.Record.Masking

namespace RequestGuard

-- Two failures that differ at most in what is for the operators: the internal text and the trace.
structure Failure.SameTold (f g : Failure) : Prop where
  kind : f.kind = g.kind
  code : f.code = g.code
  userMessage : f.userMessage = g.userMessage
  fields : f.fields = g.fields

-- Two responses that are one, or stand for such failures. The body of a response that stands for a
-- failure is written anew further out.
inductive Response.SameTold : Response → Response → Prop
  | same (response : Response) : SameTold response response
  | failing {response other : Response} {f g : Failure} : response.failure = some f →
      other.failure = some g → f.SameTold g → response.headers = other.headers →
      SameTold response other

-- Two ends of a handler that tell the same, or two crashes, with whatever they say.
inductive SameEnd : Except Crash Response → Except Crash Response → Prop
  | crashed (crash other : Crash) : SameEnd (.error crash) (.error other)
  | answered {response other : Response} : response.SameTold other →
      SameEnd (.ok response) (.ok other)

-- What of an exchange goes into a response: the id, the time as it is written and the time spent.
structure Exchange.SameView (exchange other : Exchange α) : Prop where
  requestId : exchange.context.requestId = other.context.requestId
  written : exchange.clocks.written = other.clocks.written
  spent : exchange.spent = other.spent

structure Alike (run other : Except Crash Response × Exchange α) : Prop where
  ended : SameEnd run.1 other.1
  view : run.2.SameView other.2

def Handler.Alike (handler other : Handler (Exchange α)) : Prop :=
  ∀ request exchange, RequestGuard.Alike (handler request exchange) (other request exchange)

-- Two lookups that find the same, or fail in the same way as far as callers are told.
inductive Resolver.SameFinding : Except Failure (Option Identity) →
    Except Failure (Option Identity) → Prop
  | same (found : Except Failure (Option Identity)) : SameFinding found found
  | failing {f g : Failure} : f.SameTold g → SameFinding (.error f) (.error g)

def Resolver.Alike (resolver other : Resolver) : Prop :=
  ∀ claims, SameFinding (resolver claims) (other claims)

namespace Failure

variable {f g : Failure}

theorem sameTold_iff : f.SameTold g ↔
    ∃ internal trace, g = { f with internal, trace } := by
  constructor
  · intro h
    obtain ⟨kind, code, internal, userMessage, fields, trace⟩ := g
    obtain ⟨rfl, rfl, rfl, rfl⟩ := h
    exact ⟨internal, trace, rfl⟩
  · rintro ⟨internal, trace, rfl⟩
    exact ⟨rfl, rfl, rfl, rfl⟩

theorem sameTold_chained (outer other : String) (causes others : List String) :
    (chained outer causes).SameTold (chained other others) :=
  ⟨rfl, rfl, rfl, rfl⟩

theorem sameTold_crashed (message other : String) : (crashed message).SameTold (crashed other) :=
  ⟨rfl, rfl, rfl, rfl⟩

theorem SameTold.render_eq (h : f.SameTold g) (requestId timestamp : String) :
    f.render requestId timestamp false = g.render requestId timestamp false := by
  have henvelope : f.envelope requestId timestamp false = g.envelope requestId timestamp false := by
    simp only [envelope, h.code, h.userMessage, h.fields, Bool.false_eq_true, if_false]
  simp only [render, status, headers, henvelope, h.kind]

theorem SameTold.response_sameTold (h : f.SameTold g) (requestId timestamp : String) :
    (f.response requestId timestamp).SameTold (g.response requestId timestamp) := by
  have hheaders (f : Failure) : (f.response requestId timestamp).headers =
      (f.render requestId timestamp false).headers := rfl
  have hfailure (f : Failure) : (f.response requestId timestamp).failure = some f := rfl
  refine .failing (hfailure f) (hfailure g) h ?_
  rw [hheaders, hheaders, h.render_eq]

end Failure

namespace Response.SameTold

variable {response other : Response}

theorem header (h : response.SameTold other) (name value : String) :
    (response.header name value).SameTold (other.header name value) := by
  cases h with
  | same => exact .same _
  | failing hfirst hsecond htold hheaders =>
      exact .failing hfirst hsecond htold (congrArg (·.put name value) hheaders)

end Response.SameTold

namespace Alike

variable {α : Type} {exchange next : Exchange α}

theorem refl (run : Except Crash Response × Exchange α) : Alike run run := by
  obtain ⟨outcome, after⟩ := run
  cases outcome with
  | error crash => exact ⟨.crashed .., rfl, rfl, rfl⟩
  | ok response => exact ⟨.answered (.same _), rfl, rfl, rfl⟩

-- Two runs that are alike have both crashed, or both answered.
@[elab_as_elim]
theorem elim {motive : Except Crash Response × Exchange α →
      Except Crash Response × Exchange α → Prop} {run other : Except Crash Response × Exchange α}
    (h : Alike run other)
    (crashed : ∀ crash crash' after after', after.SameView after' →
      motive (.error crash, after) (.error crash', after'))
    (answered : ∀ response response' after after', response.SameTold response' →
      after.SameView after' → motive (.ok response, after) (.ok response', after')) :
    motive run other := by
  obtain ⟨outcome, after⟩ := run
  obtain ⟨outcome', after'⟩ := other
  obtain ⟨hended, hview⟩ := h
  cases hended with
  | crashed crash crash' => exact crashed _ _ _ _ hview
  | answered htold => exact answered _ _ _ _ htold hview

theorem refuse {f g : Failure} (h : f.SameTold g) (hview : exchange.SameView next) :
    Alike (exchange.refuse f) (next.refuse g) := by
  refine ⟨.answered ?_, hview⟩
  rw [hview.requestId, hview.written]
  exact h.response_sameTold ..

end Alike

namespace Guard

variable {α : Type} {settings : Settings} {next other : Handler (Exchange α)}

-- What each stage makes of what comes from within

theorem alike_map {f : Response → Response} (hf : ∀ {response other : Response},
      response.SameTold other → (f response).SameTold (f other))
    (h : next.Alike other) : (Handler.map f next).Alike (Handler.map f other) := by
  intro request exchange
  rw [Handler.map_eq, Handler.map_eq]
  refine Alike.elim (h request exchange) ?_ ?_
  · exact fun _ _ _ _ hview => ⟨.crashed .., hview⟩
  · exact fun _ _ _ _ htold hview => ⟨.answered (hf htold), hview⟩

theorem alike_shielded (h : next.Alike other) : (shielded next).Alike (shielded other) := by
  intro request exchange
  unfold shielded
  refine Alike.elim (h request exchange) ?_ ?_
  · exact fun _ _ _ _ hview => .refuse (Failure.sameTold_crashed ..) hview
  · exact fun _ _ _ _ htold hview => ⟨.answered htold, hview⟩

theorem alike_screening (h : next.Alike other) (settings : ValidationSettings) :
    ((screening settings).process next).Alike ((screening settings).process other) := by
  intro request exchange
  simp only [screening]
  split
  · exact .refl _
  · split
    · exact .refl _
    · split
      · exact .refl _
      · exact h _ _

theorem alike_quota (h : next.Alike other) (settings : LimitSettings) :
    ((quota settings).process next).Alike ((quota settings).process other) := by
  intro request exchange
  simp only [quota]
  split
  · exact .refl _
  · split
    · exact .refl _
    · next decision _ =>
        cases decision with
        | allowed limit remaining =>
            exact alike_map (fun htold => (htold.header ..).header ..) h _ _
        | bypassed => exact h _ _
        | degraded => exact h _ _
        | limited window count limit retryAfter => exact .refl _
        | blocked => exact .refl _

-- A lookup that fails in another way changes nothing but the failure that is handed on.
theorem verify_of_alike {resolver finder : Resolver} (h : resolver.Alike finder)
    (auth : AuthSettings) (now storeNow : Nat) (token : String) (backend : Backend) :
    Verifier.verify auth finder now storeNow token backend =
        Verifier.verify auth resolver now storeNow token backend ∨
      ∃ f g after, f.SameTold g ∧
        Verifier.verify auth resolver now storeNow token backend =
          (.ok (.error ⟨f, none⟩), after) ∧
        Verifier.verify auth finder now storeNow token backend =
          (.ok (.error ⟨g, none⟩), after) := by
  unfold Verifier.verify
  split
  · exact .inl rfl
  · exact .inl rfl
  · next claims _ =>
      split
      · exact .inl rfl
      · dsimp only
        split
        · exact .inl rfl
        · exact .inl rfl
        · exact .inl rfl
        · next after _ =>
            unfold Verifier.resolve
            have hfinding := h claims
            generalize resolver claims = found at hfinding ⊢
            generalize finder claims = found' at hfinding ⊢
            cases hfinding with
            | same => exact .inl rfl
            | @failing f g htold => exact .inr ⟨f, g, after, htold, rfl, rfl⟩

theorem alike_credential {resolver finder : Resolver} (hresolver : resolver.Alike finder)
    (h : next.Alike other) (auth : AuthSettings) :
    ((credential auth resolver).process next).Alike ((credential auth finder).process other) := by
  intro request exchange
  simp only [credential]
  split
  · split
    · exact h _ _
    · exact .refl _
  · split
    · exact .refl _
    · next token _ =>
        obtain hsame | ⟨f, g, after, htold, hfirst, hsecond⟩ := verify_of_alike hresolver auth
          exchange.clocks.expiring exchange.clocks.storing token exchange.backend
        · rw [hsame]
          split
          · exact .refl _
          · exact h _ _
          · exact .refl _
        · rw [hfirst, hsecond]
          exact .refuse htold ⟨rfl, rfl, rfl⟩

theorem alike_reached (h : next.Alike other) (settings : LogSettings) :
    (reached settings next).Alike (reached settings other) := by
  intro request exchange
  unfold reached
  split
  · exact .refl _
  · exact h _ _

theorem alike_journal (h : next.Alike other) (settings : LogSettings) :
    ((journal settings).process next).Alike ((journal settings).process other) := by
  intro request exchange
  rw [journal_eq, journal_eq]
  refine Alike.elim (alike_reached h settings request exchange) ?_ ?_
  · exact fun _ _ _ _ hview => ⟨.crashed .., hview⟩
  · intro response response' after after' htold hview
    simp only [concluded_eq]
    refine ⟨.answered ?_, hview.requestId, hview.written, hview.spent⟩
    rw [hview.spent]
    exact htold.header ..

theorem answerOf_sameTold {run other : Except Crash Response × Exchange α} (h : Alike run other) :
    (answerOf run).SameTold (answerOf other) := by
  refine Alike.elim h ?_ ?_
  · intro crash crash' after after' hview
    simp only [answerOf, hview.requestId, hview.written]
    exact (Failure.sameTold_crashed ..).response_sameTold ..
  · exact fun _ _ _ _ htold _ => htold

theorem response_enveloped (hdebug : settings.debug = false) {response other : Response}
    (h : response.SameTold other) {after last : Exchange α} (hview : after.SameView last)
    (request : Request) : (enveloped settings request response after).1 =
      (enveloped settings request other last).1 := by
  cases h with
  | same =>
      simp only [enveloped, hview.requestId, hview.written]
      split
      · rfl
      · split
        · rfl
        · rfl
  | failing hfirst hsecond htold hheaders =>
      rw [enveloped_of_failure hfirst, enveloped_of_failure hsecond, hdebug, hview.requestId,
        hview.written, htold.render_eq, withHeadersOf, withHeadersOf, hheaders]

theorem response_envelope (hdebug : settings.debug = false) {request : Request}
    {exchange : Exchange α} (h : Alike (next request exchange) (other request exchange)) :
    ((envelope settings).process next request exchange).1 =
      ((envelope settings).process other request exchange).1 := by
  simp only [envelope_eq, requestId_enveloped]
  rw [response_enveloped hdebug (answerOf_sameTold h) h.view, h.view.requestId]

theorem alike_behindCredential {resolver finder : Resolver} (hresolver : resolver.Alike finder)
    (h : next.Alike other) : (behindCredential settings resolver next).Alike
      (behindCredential settings finder other) :=
  alike_credential hresolver
    (alike_quota (alike_screening (alike_shielded h) settings.validation) settings.limits)
    settings.auth

-- Without debugging no response tells anything of what is for the operators only, though it is
-- taken down for them.
theorem internals_withheld (settings : Settings) (hdebug : settings.debug = false) :
    (∀ (next other : Handler (Exchange α)) (request : Request) (exchange : Exchange α),
      Alike (next request exchange) (other request exchange) →
      ((envelope settings).process next request exchange).1 =
        ((envelope settings).process other request exchange).1) ∧
    (∀ (resolver finder : Resolver) (routes others : Handler (Exchange α)),
      resolver.Alike finder → routes.Alike others →
      ∀ (request : Request) (exchange : Exchange α),
        (protect settings resolver routes request exchange).1 =
          (protect settings finder others request exchange).1) ∧
    (∀ (exchange : Exchange α) (f : Failure) (internal : String) (trace : Option String),
      Alike (exchange.refuse f) (exchange.refuse { f with internal, trace })) ∧
    (∀ (exchange : Exchange α) (outer other : String) (causes others : List String),
      Alike (exchange.refuse (.chained outer causes)) (exchange.refuse (.chained other others))) ∧
    (∀ (exchange : Exchange α) (crash other : Crash),
      Alike (.error crash, exchange) (.error other, exchange)) ∧
    (∀ (next : Handler (Exchange α)) (request : Request) (exchange : Exchange α) (f : Failure),
      (answerOf (next request exchange)).failure = some f →
      ∃ record : Record, record.category = .error ∧
        record.get? "internal" = some (.text f.internal) ∧
        record.get? "trace" = f.trace.map .text ∧
        ((envelope settings).process next request exchange).2.records =
          (next request exchange).2.records ++
            [record.redacted settings.logging.sensitiveFields] ∧
        (¬Listed settings.logging.sensitiveFields "internal" →
          (record.redacted settings.logging.sensitiveFields).get? "internal" =
            some (.text f.internal))) := by
  have hself (exchange : Exchange α) : exchange.SameView exchange := ⟨rfl, rfl, rfl⟩
  refine ⟨?_, ?_, ?_, ?_, ?_, ?_⟩
  · exact fun next other request exchange h => response_envelope hdebug h
  · intro resolver finder routes others hresolver hroutes request exchange
    rw [protect_eq, protect_eq]
    exact response_envelope hdebug
      (alike_journal (alike_behindCredential hresolver hroutes) settings.logging request exchange)
  · intro exchange f internal trace
    exact .refuse (Failure.sameTold_iff.mpr ⟨internal, trace, rfl⟩) (hself exchange)
  · intro exchange outer other causes others
    exact .refuse (Failure.sameTold_chained ..) (hself exchange)
  · exact fun exchange crash other => ⟨.crashed .., hself exchange⟩
  · intro next request exchange f hf
    have hinternal := internal_errorRecord (next request exchange).2.context request f.status
      f.kind.name f
    refine ⟨_, category_errorRecord .., hinternal, trace_errorRecord .., ?_,
      fun hopen => Record.get?_redacted_of_open hopen hinternal⟩
    simp only [envelope_eq, enveloped_of_failure hf]
    rfl

-- Routes that fail with some text.
def failingWith (internal : String) : Handler (Exchange Unit) :=
  fun _ exchange => exchange.refuse (.dataStore internal)

theorem internals_withheld_of_dataStore :
    ({} : Settings).debug = false ∧
    (protect {} .ofClaims (failingWith "no route to 10.0.0.1") { path := "/health" }
        (.blank "id" ())).1 =
      (protect {} .ofClaims (failingWith "wrong password") { path := "/health" }
        (.blank "id" ())).1 ∧
    ∃ record : Record, record.get? "internal" = some (.text "wrong password") ∧
      ((envelope {}).process (failingWith "wrong password") {}
        (.blank "id" ())).2.records =
        [record.redacted ({} : LogSettings).sensitiveFields] := by
  obtain ⟨-, hprotected, htyped, -, -, hrecorded⟩ := internals_withheld (α := Unit) {} rfl
  refine ⟨rfl, ?_, ?_⟩
  · refine hprotected .ofClaims .ofClaims _ _ (fun claims => .same _) ?_ _ _
    exact fun request exchange => htyped exchange (.dataStore "no route to 10.0.0.1")
      "wrong password" none
  · obtain ⟨record, -, hinternal, -, hrecords, -⟩ :=
      hrecorded (failingWith "wrong password") {} (.blank "id" ()) _ rfl
    exact ⟨record, hinternal, hrecords⟩

end Guard

end RequestGuard
