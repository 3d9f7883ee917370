import RequestGuard.Proofs.Guard.Writing
import RequestGuard.Proofs.Guard.Passage

namespace RequestGuard

variable {α : Type}

namespace Tally

-- How often the counters of one name have been raised, whatever their labels.
def total (name : String) : Tally → Nat
  | [] => 0
  | (c, n) :: rest => (if c.name = name then n else 0) + total name rest

theorem total_raise (name : String) (tally : Tally) (counter : Counter) :
    total name (tally.raise counter) = total name tally + if counter.name = name then 1 else 0 := by
  induction tally with
  | nil => simp [raise, total]
  | cons head rest ih =>
      obtain ⟨c, n⟩ := head
      rw [raise]
      split
      · next heq =>
          subst heq
          simp only [total]
          split
          · omega
          · omega
      · simp only [total, ih]
        omega

theorem total_foldl_raise (name : String) (counters : List Counter) (tally : Tally) :
    total name (counters.foldl raise tally) =
      total name tally + counters.countP (·.name = name) := by
  induction counters generalizing tally with
  | nil => rfl
  | cons counter rest ih =>
      rw [List.foldl_cons, ih, total_raise, List.countP_cons]
      simp only [decide_eq_true_eq]
      omega

end Tally

-- What the journal and the envelope add to: the records and the number of the requests, under the
-- id of the request.
def Exchange.trail (exchange : Exchange α) : String × List Record × Nat :=
  (exchange.context.requestId, exchange.records, Tally.total "http_requests_total" exchange.tally)

-- A handler that writes no record itself, counts no request and leaves the id as it is.
def Handler.Discreet (handler : Handler (Exchange α)) : Prop :=
  ∀ request exchange, (handler request exchange).2.trail = exchange.trail

namespace Exchange

variable (exchange : Exchange α)

theorem trail_raise {counter : Counter} (h : counter.name ≠ "http_requests_total") :
    (exchange.raise counter).trail = exchange.trail := by
  simp only [trail, raise, Tally.total_raise, if_neg h, Nat.add_zero]

theorem trail_foldl_raise {counters : List Counter}
    (h : ∀ counter ∈ counters, counter.name ≠ "http_requests_total") :
    (counters.foldl raise exchange).trail = exchange.trail := by
  have hcount : counters.countP (·.name = "http_requests_total") = 0 := by
    simpa [List.countP_eq_zero] using h
  simp only [foldl_raise, trail, Tally.total_foldl_raise, hcount, Nat.add_zero]

theorem trail_noteAll (events : List Event) : (exchange.noteAll events).trail = exchange.trail := by
  unfold noteAll
  induction events generalizing exchange with
  | nil => rfl
  | cons event rest ih =>
      rw [List.foldl_cons, ih]
      rfl

theorem trail_admitCaller (verified : Verified) :
    (Guard.admitCaller verified exchange).trail = exchange.trail := by
  simp only [Guard.admitCaller, Context.attach]
  split
  · rfl
  · rfl

end Exchange

namespace Guard

variable {next : Handler (Exchange α)}

theorem trail_noteBot (settings : LogSettings) (request : Request) (exchange : Exchange α) :
    (noteBot settings request exchange).trail = exchange.trail := by
  unfold noteBot
  split
  · split
    · rfl
    · rfl
  · rfl

theorem trail_noteValidated (validated : Validated) (exchange : Exchange α) :
    (noteValidated validated exchange).trail = exchange.trail := by
  simp only [noteValidated]
  split <;> split <;> rfl

-- None of the inner stages writes a record or counts a request

theorem discreet_shielded (h : next.Discreet) : (shielded next).Discreet := by
  intro request exchange
  rw [state_shielded]
  exact h request exchange

theorem discreet_map (h : next.Discreet) (f : Response → Response) :
    (Handler.map f next).Discreet := by
  intro request exchange
  rw [Handler.map_eq]
  exact h request exchange

theorem discreet_screening (h : next.Discreet) (settings : ValidationSettings) :
    ((screening settings).process next).Discreet := by
  intro request exchange
  simp only [screening]
  split
  · rfl
  · split
    · rfl
    · split
      · exact Exchange.trail_noteAll ..
      · rw [h, trail_noteValidated]

theorem trail_refuseBlocked (identity : String) (exchange : Exchange α) :
    (refuseBlocked identity exchange).2.trail = exchange.trail :=
  Exchange.trail_raise exchange (by decide)

theorem trail_refuseLimited (identity : String) (window : WindowName) (count limit retryAfter : Nat)
    (exchange : Exchange α) :
    (refuseLimited identity window count limit retryAfter exchange).2.trail = exchange.trail :=
  Exchange.trail_raise exchange (by simp [Counter.rejection])

theorem trail_decision (decision : Decision) (exchange : Exchange α) :
    (decision.counters.foldl Exchange.raise exchange).trail = exchange.trail := by
  apply Exchange.trail_foldl_raise
  cases decision with
  | degraded => simp [Decision.counters, Counter.degraded]
  | _ => simp [Decision.counters]

theorem discreet_quota (h : next.Discreet) (settings : LimitSettings) :
    ((quota settings).process next).Discreet := by
  intro request exchange
  simp only [quota]
  split
  · exact trail_refuseBlocked ..
  · split
    · rfl
    · next decision _ =>
        have hcounted (backend : Backend) := trail_decision decision { exchange with backend }
        cases decision with
        | allowed limit remaining => exact (discreet_map h _ _ _).trans (hcounted _)
        | limited window count limit retryAfter => exact (trail_refuseLimited ..).trans (hcounted _)
        | blocked => exact (trail_refuseBlocked ..).trans (hcounted _)
        | bypassed => exact (h _ _).trans (hcounted _)
        | degraded => exact (h _ _).trans (hcounted _)

theorem discreet_credential (h : next.Discreet) (settings : AuthSettings) (resolver : Resolver) :
    ((credential settings resolver).process next).Discreet := by
  intro request exchange
  simp only [credential]
  split
  · split
    · exact h ..
    · rfl
  · split
    · rfl
    · split
      · rfl
      · rw [h, Exchange.trail_admitCaller]
        rfl
      · exact Exchange.trail_noteAll ..

theorem discreet_behindCredential (h : next.Discreet) (settings : Settings) (resolver : Resolver) :
    (behindCredential settings resolver next).Discreet :=
  discreet_credential
    (discreet_quota (discreet_screening (discreet_shielded h) settings.validation) settings.limits)
    settings.auth resolver

theorem discreet_reached (h : next.Discreet) (settings : LogSettings) :
    (reached settings next).Discreet := by
  intro request exchange
  unfold reached
  split
  · exact trail_noteBot ..
  · rw [h, trail_noteBot]

end Guard

end RequestGuard
