import RequestGuard.Proofs.Limiter.Admission
import RequestGuard.Proofs.Limiter.Callers
import RequestGuard.Proofs.Limiter.Framing

namespace RequestGuard.Limiter

variable {settings : LimitSettings} {identity : String} {clock now : Nat} {one two store : Store}
  {step : Step}

def IsKeyOf (identity key : String) : Prop :=
  ∃ window bucket, key = counterKey identity window bucket

-- Two stores show the same under every key that is not one of the identity.
def AgreeOff (identity : String) (clock : Nat) (one two : Store) : Prop :=
  ∀ key, ¬IsKeyOf identity key → one.live clock key = two.live clock key

theorem not_isKeyOf {a b : String} (hne : a ≠ b) (hab : Apart a b) (hba : Apart b a)
    (window : WindowName) (bucket : Nat) : ¬IsKeyOf a (counterKey b window bucket) := by
  rintro ⟨other, number, hkey⟩
  exact hne (counterKey_apart hba hab hkey).1.symm

namespace AgreeOff

theorem later (h : AgreeOff identity clock one two) {later : Nat} (hle : clock ≤ later) :
    AgreeOff identity later one two := by
  intro key hkey
  rw [Store.live_later one hle, Store.live_later two hle, h key hkey]

-- A call of the identity itself
theorem own (h : AgreeOff step.identity step.clock one two) (now : Nat) :
    ∃ next, (performAt settings now step ⟨.working, one⟩).2 = ⟨.working, next⟩ ∧
      AgreeOff step.identity step.clock next two := by
  obtain ⟨next, hnext, hlive⟩ := performAt_live settings now step one
  refine ⟨next, hnext, fun key hkey => ?_⟩
  have hne : ∀ window ∈ settings.windows, key ≠ window.key step.identity now :=
    fun window _ heq => hkey ⟨_, _, heq⟩
  rw [hlive key hne step.clock (Nat.le_refl _), h key hkey]

theorem countAll {caller : String} {windows : List Window} (h : AgreeOff identity clock one two)
    (hkeys : ∀ window ∈ windows, ¬IsKeyOf identity (window.key caller now)) :
    ∃ next other : Store, ∃ reply,
      Limiter.countAll caller clock now windows ⟨.working, one⟩ = (reply, ⟨.working, next⟩) ∧
      Limiter.countAll caller clock now windows ⟨.working, two⟩ = (reply, ⟨.working, other⟩) ∧
      AgreeOff identity clock next other := by
  induction windows generalizing one two with
  | nil => exact ⟨one, two, _, rfl, rfl, h⟩
  | cons window rest ih =>
      obtain ⟨hwindow, hrest⟩ := List.forall_mem_cons.mp hkeys
      have hlive := h _ hwindow
      obtain ⟨hreply, -⟩ := Store.increment_congr hlive (window.left now)
      have hnext : AgreeOff identity clock
          (one.increment clock (window.key caller now) (window.left now)).2
          (two.increment clock (window.key caller now) (window.left now)).2 :=
        fun key hkey => Store.live_increment_congr hlive _ (h key hkey)
      simp only [Limiter.countAll, Backend.increment_working, hreply]
      cases (two.increment clock (window.key caller now) (window.left now)).1 with
      | failed error => exact ⟨_, _, _, rfl, rfl, hnext⟩
      | broken crash => exact ⟨_, _, _, rfl, rfl, hnext⟩
      | done count =>
          obtain ⟨last, other, reply, hone, htwo, hlast⟩ := ih hnext hrest
          refine ⟨last, other, ?_⟩
          dsimp only
          rw [hone, htwo]
          cases reply with
          | done counts => exact ⟨_, rfl, rfl, hlast⟩
          | failed error => exact ⟨_, rfl, rfl, hlast⟩
          | broken crash => exact ⟨_, rfl, rfl, hlast⟩

theorem reset (h : AgreeOff identity clock one two) (settings : LimitSettings) (now : Nat)
    (caller : String) :
    ∃ next other : Store, ∃ existed found,
      Limiter.reset settings now caller ⟨.working, one⟩ = (.done existed, ⟨.working, next⟩) ∧
      Limiter.reset settings now caller ⟨.working, two⟩ = (.done found, ⟨.working, other⟩) ∧
      AgreeOff identity clock next other ∧
      ((∀ window ∈ settings.windows, (one.find? (window.key caller now)).isSome =
        (two.find? (window.key caller now)).isSome) → existed = found) := by
  obtain ⟨existed, next, hone, hexisted, hnone, hkept⟩ :=
    resetAll_erased caller now settings.windows one settings.names_nodup
  obtain ⟨found, other, htwo, hfound, hnone', hkept'⟩ :=
    resetAll_erased caller now settings.windows two settings.names_nodup
  refine ⟨next, other, existed, found, hone, htwo, fun key hkey => ?_, fun hsame => ?_⟩
  · by_cases hmem : ∃ window ∈ settings.windows, key = window.key caller now
    · obtain ⟨window, hwindow, rfl⟩ := hmem
      rw [Store.live, Store.live, hnone window hwindow, hnone' window hwindow]
    · have hne : ∀ window ∈ settings.windows, key ≠ window.key caller now :=
        fun window hwindow heq => hmem ⟨window, hwindow, heq⟩
      have hagree := h key hkey
      rwa [Store.live, Store.live, ← hkept key hne, ← hkept' key hne] at hagree
  · rw [Bool.eq_iff_iff, hexisted, hfound]
    exact exists_congr fun window => and_congr_right fun hwindow => by rw [hsame window hwindow]

-- A call of somebody else. What a reset tells depends on what is held, expired or not.
theorem other (h : AgreeOff identity step.clock one two)
    (hkeys : ∀ window ∈ settings.windows, ¬IsKeyOf identity (window.key step.identity now)) :
    ∃ next other : Store,
      (performAt settings now step ⟨.working, one⟩).2 = ⟨.working, next⟩ ∧
      (performAt settings now step ⟨.working, two⟩).2 = ⟨.working, other⟩ ∧
      AgreeOff identity step.clock next other ∧
      ((step.call = .reset → ∀ window ∈ settings.windows,
          (one.find? (window.key step.identity now)).isSome =
            (two.find? (window.key step.identity now)).isSome) →
        (performAt settings now step ⟨.working, one⟩).1 =
          (performAt settings now step ⟨.working, two⟩).1) := by
  cases hcall : step.call with
  | usage =>
      have hvalue : (one.get step.clock (settings.primary.key step.identity now)).1 =
          (two.get step.clock (settings.primary.key step.identity now)).1 := by
        rw [Store.get_value, Store.get_value, h _ (hkeys _ settings.primary_mem)]
      simp only [performAt, hcall, usage, Backend.get_working, hvalue]
      refine ⟨_, _, rfl, rfl, fun key hkey => ?_, fun _ => trivial⟩
      rw [Store.live_get _ _ _ (Nat.le_refl _), Store.live_get _ _ _ (Nat.le_refl _), h key hkey]
  | reset =>
      obtain ⟨next, other, existed, found, hone, htwo, hagree, hsame⟩ :=
        h.reset settings now step.identity
      simp only [performAt, hcall, hone, htwo]
      refine ⟨next, other, rfl, rfl, hagree, fun hheld => ?_⟩
      rw [hsame (hheld trivial)]
  | check =>
      obtain ⟨next, other, reply, hone, htwo, hagree⟩ := h.countAll hkeys
      simp only [performAt, hcall, check, hone, htwo]
      split
      · exact ⟨one, two, rfl, rfl, h, fun _ => rfl⟩
      · split
        · exact ⟨one, two, rfl, rfl, h, fun _ => rfl⟩
        · cases reply with
          | done counts => exact ⟨next, other, rfl, rfl, hagree, fun _ => rfl⟩
          | failed error => exact ⟨next, other, rfl, rfl, hagree, fun _ => rfl⟩
          | broken crash => exact ⟨next, other, rfl, rfl, hagree, fun _ => rfl⟩

end AgreeOff

-- While the clocks go together, nothing under a key of a bucket expires before the bucket ends.
def Aligned (settings : LimitSettings) (start : Nat) (identities : List String) (clock : Nat)
    (store : Store) : Prop :=
  ∀ identity ∈ identities, ∀ window ∈ settings.windows, ∀ bucket,
    window.bucket (nowAt start clock) ≤ bucket →
    ∀ deadline, store.HoldsUntil (counterKey identity window.name bucket) deadline →
      (bucket + 1) * window.seconds * 1000 ≤ start + deadline

namespace Aligned

variable {start : Nat} {identities : List String}

theorem empty : Aligned settings start identities clock {} := by
  rintro identity _ window _ bucket _ deadline ⟨entry, hfind, _⟩
  cases hfind

theorem later (h : Aligned settings start identities clock store) {later : Nat}
    (hle : clock ≤ later) : Aligned settings start identities later store := by
  intro identity hid window hwindow bucket hbucket
  exact h identity hid window hwindow bucket (Nat.le_trans (bucket_nowAt_mono hle) hbucket)

theorem performAt (h : Aligned settings start identities step.clock store)
    (hapart : ∀ a ∈ identities, ∀ b ∈ identities, Apart a b) (hstep : step.identity ∈ identities) :
    ∃ next, (Limiter.performAt settings (nowAt start step.clock) step ⟨.working, store⟩).2 =
        ⟨.working, next⟩ ∧
      Aligned settings start identities step.clock next := by
  refine performAt_keeps (P := Aligned settings start identities step.clock)
    (fun window hwindow next hnext => ?_) (fun key next hnext => ?_)
    (fun window hwindow next hnext => ?_) h
  · intro identity hid other hother bucket hbucket deadline hheld
    rcases hheld.of_increment with hbefore | ⟨hkey, rfl⟩
    · exact hnext identity hid other hother bucket hbucket deadline hbefore
    · obtain ⟨-, hname, rfl⟩ :=
        counterKey_apart (hapart _ hid _ hstep) (hapart _ hstep _ hid) hkey
      have hsame := List.inj_on_of_nodup_map settings.names_nodup hother hwindow hname
      subst hsame
      exact bucket_end_le hwindow
  · intro identity hid other hother bucket hbucket deadline hheld
    exact hnext identity hid other hother bucket hbucket deadline hheld.of_touch
  · intro identity hid other hother bucket hbucket deadline hheld
    exact hnext identity hid other hother bucket hbucket deadline hheld.of_erase

-- So what is held under a current key is live.
theorem live_eq (h : Aligned settings start identities clock store) (hid : identity ∈ identities)
    {window : Window} (hwindow : window ∈ settings.windows) :
    store.live clock (window.key identity (nowAt start clock)) =
      store.find? (window.key identity (nowAt start clock)) := by
  cases hfind : store.find? (window.key identity (nowAt start clock)) with
  | none => rw [Store.live, hfind, Option.filter_none]
  | some entry =>
      cases hdeadline : entry.deadline with
      | none => simp [Store.live, hfind, Option.filter_some, Entry.isExpired, hdeadline]
      | some deadline =>
          have hend := h identity hid window hwindow _ (Nat.le_refl _) deadline
            ⟨entry, hfind, hdeadline⟩
          have hfresh := deadline_later hwindow (Nat.le_refl _) hend
          simp [Store.live, hfind, Option.filter_some, Entry.isExpired, hdeadline, hfresh]

end Aligned

-- A call, with the seconds that the clock of the limiter shows.
structure Timed where
  now : Nat
  step : Step

-- The calls of a run, each with its answer.
def answered (settings : LimitSettings) : List Timed → Backend → List (Timed × Answer)
  | [], _ => []
  | timed :: rest, backend =>
    (timed, (performAt settings timed.now timed.step backend).1) ::
      answered settings rest (performAt settings timed.now timed.step backend).2

def Timed.isOf (identity : String) (timed : Timed) : Bool :=
  timed.step.identity = identity

def Timed.isReset (timed : Timed) : Bool :=
  timed.step.call = .reset

-- The clocks go together.
def InStep (start : Nat) (run : List Timed) : Prop :=
  ∀ timed ∈ run, timed.now = nowAt start timed.step.clock

-- What a reset tells can be compared if the clocks have always gone together.
def Comparable (settings : LimitSettings) (identities : List String) (run : List Timed)
    (shown : Timed → Bool) (clock : Nat) (one two : Store) : Prop :=
  (∀ timed ∈ run, shown timed = true → timed.isReset = false) ∨
    ∃ start, InStep start run ∧ Aligned settings start identities clock one ∧
      Aligned settings start identities clock two

namespace Comparable

variable {a : String} {identities : List String} {timed : Timed} {rest : List Timed}
  {shown : Timed → Bool} {next other : Store}

-- A call that is made in one of the runs only
theorem own (h : Comparable settings identities (timed :: rest) shown clock one two)
    (hclock : clock ≤ timed.step.clock) (hapart : ∀ x ∈ identities, ∀ y ∈ identities, Apart x y)
    (hid : timed.step.identity ∈ identities)
    (hnext : (performAt settings timed.now timed.step ⟨.working, one⟩).2 = ⟨.working, next⟩) :
    Comparable settings identities rest shown timed.step.clock next two := by
  rcases h with hnone | ⟨start, hinstep, hone, htwo⟩
  · exact .inl fun other hother => hnone other (List.mem_cons_of_mem _ hother)
  · obtain ⟨hnow, hrest⟩ := List.forall_mem_cons.mp hinstep
    obtain ⟨found, hfound, haligned⟩ := (hone.later hclock).performAt hapart hid
    rw [← hnow, hnext] at hfound
    cases hfound
    exact .inr ⟨start, hrest, haligned, htwo.later hclock⟩

-- A call that is made in both
theorem both (h : Comparable settings identities (timed :: rest) shown clock one two)
    (hclock : clock ≤ timed.step.clock) (hapart : ∀ x ∈ identities, ∀ y ∈ identities, Apart x y)
    (hid : timed.step.identity ∈ identities)
    (hone : (performAt settings timed.now timed.step ⟨.working, one⟩).2 = ⟨.working, next⟩)
    (htwo : (performAt settings timed.now timed.step ⟨.working, two⟩).2 = ⟨.working, other⟩) :
    Comparable settings identities rest shown timed.step.clock next other := by
  rcases h with hnone | ⟨start, hinstep, honeAligned, htwoAligned⟩
  · exact .inl fun other hother => hnone other (List.mem_cons_of_mem _ hother)
  · obtain ⟨hnow, hrest⟩ := List.forall_mem_cons.mp hinstep
    obtain ⟨_, hfoundOne, hnextOne⟩ := (honeAligned.later hclock).performAt hapart hid
    obtain ⟨_, hfoundTwo, hnextTwo⟩ := (htwoAligned.later hclock).performAt hapart hid
    rw [← hnow, hone] at hfoundOne
    rw [← hnow, htwo] at hfoundTwo
    cases hfoundOne
    cases hfoundTwo
    exact .inr ⟨start, hrest, hnextOne, hnextTwo⟩

theorem held (h : Comparable settings identities (timed :: rest) shown clock one two)
    (hclock : clock ≤ timed.step.clock) (hid : timed.step.identity ∈ identities)
    (hagree : AgreeOff a timed.step.clock one two)
    (hkeys : ∀ window ∈ settings.windows, ¬IsKeyOf a (window.key timed.step.identity timed.now))
    (hshown : shown timed = true) (hreset : timed.step.call = .reset) :
    ∀ window ∈ settings.windows,
      (one.find? (window.key timed.step.identity timed.now)).isSome =
        (two.find? (window.key timed.step.identity timed.now)).isSome := by
  rcases h with hnone | ⟨start, hinstep, hone, htwo⟩
  · have hnot := hnone timed List.mem_cons_self hshown
    simp [Timed.isReset, hreset] at hnot
  · intro window hwindow
    obtain ⟨hnow, -⟩ := List.forall_mem_cons.mp hinstep
    have hlive := hagree _ (hkeys window hwindow)
    rw [hnow] at hlive ⊢
    rw [(hone.later hclock).live_eq hid hwindow, (htwo.later hclock).live_eq hid hwindow] at hlive
    rw [hlive]

end Comparable

-- The calls of one identity can be left out: no answer that is shown to others changes.
theorem answered_without {a : String} {identities : List String} {run : List Timed}
    (shown : Timed → Bool) (hapart : ∀ x ∈ identities, ∀ y ∈ identities, Apart x y)
    (ha : a ∈ identities) (hids : ∀ timed ∈ run, timed.step.identity ∈ identities)
    (hforward : run.Pairwise (·.step.clock ≤ ·.step.clock))
    (hclock : ∀ timed ∈ run, clock ≤ timed.step.clock)
    (hshown : ∀ timed ∈ run, shown timed = true → timed.isOf a = false)
    (hagree : AgreeOff a clock one two)
    (hresets : Comparable settings identities run shown clock one two) :
    (answered settings run ⟨.working, one⟩).filter (shown ·.1) =
      (answered settings (run.filter (!·.isOf a)) ⟨.working, two⟩).filter (shown ·.1) := by
  induction run generalizing clock one two with
  | nil => rfl
  | cons timed rest ih =>
      obtain ⟨hid, hids⟩ := List.forall_mem_cons.mp hids
      obtain ⟨hlater, hforward⟩ := List.pairwise_cons.mp hforward
      obtain ⟨hclock, -⟩ := List.forall_mem_cons.mp hclock
      obtain ⟨hshown, hshownRest⟩ := List.forall_mem_cons.mp hshown
      have hagree := hagree.later hclock
      cases hown : timed.isOf a with
      | true =>
          have hidentity : timed.step.identity = a := of_decide_eq_true hown
          obtain ⟨next, hnext, hnextAgree⟩ := (hidentity ▸ hagree).own timed.now
          have hhidden : ¬shown timed = true := fun h => by simp [hshown h] at hown
          rw [List.filter_cons_of_neg (by simp [hown]), answered, hnext, List.filter_cons,
            if_neg hhidden]
          exact ih hids hforward hlater hshownRest (hidentity ▸ hnextAgree)
            (hresets.own hclock hapart hid hnext)
      | false =>
          have hne : timed.step.identity ≠ a := of_decide_eq_false hown
          have hkeys : ∀ window ∈ settings.windows,
              ¬IsKeyOf a (window.key timed.step.identity timed.now) := fun window _ =>
            not_isKeyOf hne.symm (hapart _ ha _ hid) (hapart _ hid _ ha) _ _
          obtain ⟨next, other, hone, htwo, hnextAgree, hanswer⟩ := hagree.other hkeys
          have hrest := ih hids hforward hlater hshownRest hnextAgree
            (hresets.both hclock hapart hid hone htwo)
          rw [List.filter_cons_of_pos (by simp [hown]), answered, answered, hone, htwo]
          by_cases h : shown timed = true
          · rw [List.filter_cons, List.filter_cons, if_pos h, if_pos h, hrest,
              hanswer (hresets.held hclock hid hagree hkeys h)]
          · rw [List.filter_cons, List.filter_cons, if_neg h, if_neg h, hrest]

-- A run and what is left of it without one identity show the same to everybody else.
theorem answered_eq_without {a : String} {identities : List String} {run : List Timed}
    (shown : Timed → Bool) (hapart : ∀ x ∈ identities, ∀ y ∈ identities, Apart x y)
    (ha : a ∈ identities) (hids : ∀ timed ∈ run, timed.step.identity ∈ identities)
    (hforward : run.Pairwise (·.step.clock ≤ ·.step.clock))
    (hshown : ∀ timed, shown timed = true → timed.isOf a = false)
    (hresets : (∀ timed, shown timed = true → timed.isReset = false) ∨
      ∃ start, InStep start run) :
    (answered settings run {}).filter (shown ·.1) =
      (answered settings (run.filter (!·.isOf a)) {}).filter (shown ·.1) := by
  refine answered_without shown hapart ha hids hforward
    (fun timed _ => Nat.zero_le timed.step.clock) (fun timed _ => hshown timed) (fun _ _ => rfl) ?_
  rcases hresets with hnone | ⟨start, hinstep⟩
  · exact .inl fun timed _ => hnone timed
  · exact .inr ⟨start, hinstep, .empty, .empty⟩

-- Whoever sends a request is a caller. No caller is counted under a key of another, and no answer
-- to others depends on the calls of one, as long as no subject is another with the name of a
-- longer window behind it. What a reset tells is the same if the clocks go together.
theorem budgets_separate (settings : LimitSettings) (identities : List String)
    (hcallers : ∀ identity ∈ identities, IsCaller identity)
    (hsubjects : ∀ s t, "user:" ++ s ∈ identities → "user:" ++ t ∈ identities → Apart s t)
    (a : String) (ha : a ∈ identities) (run other : List Timed)
    (hids : ∀ timed ∈ run ++ other, timed.step.identity ∈ identities)
    (hrun : run.Pairwise (·.step.clock ≤ ·.step.clock))
    (hother : other.Pairwise (·.step.clock ≤ ·.step.clock))
    (hsame : run.filter (!·.isOf a) = other.filter (!·.isOf a)) :
    (∀ request context, IsCaller (Guard.limitIdentity settings request context)) ∧
    (∀ b ∈ identities, a ≠ b → ∀ m n i j, counterKey a m i ≠ counterKey b n j) ∧
    (answered settings run {}).filter (fun x => !x.1.isOf a && !x.1.isReset) =
      (answered settings other {}).filter (fun x => !x.1.isOf a && !x.1.isReset) ∧
    ∀ start, InStep start run → InStep start other →
      (answered settings run {}).filter (fun x => !x.1.isOf a) =
        (answered settings other {}).filter (fun x => !x.1.isOf a) := by
  have hapart : ∀ x ∈ identities, ∀ y ∈ identities, Apart x y := by
    intro x hx y hy
    refine apart_of_callers (hcallers x hx) (hcallers y hy) fun s t hs ht => ?_
    exact hsubjects s t (hs ▸ hx) (ht ▸ hy)
  obtain ⟨hidsRun, hidsOther⟩ := List.forall_mem_append.mp hids
  refine ⟨limitIdentity_isCaller settings, fun b hb hne m n i j hkey => ?_, ?_,
    fun start hstart hstartOther => ?_⟩
  · exact hne (counterKey_apart (hapart a ha b hb) (hapart b hb a ha) hkey).1
  · rw [answered_eq_without (fun timed => !timed.isOf a && !timed.isReset) hapart ha
        hidsRun hrun (by simp +contextual) (.inl (by simp)), hsame]
    exact (answered_eq_without (fun timed => !timed.isOf a && !timed.isReset) hapart ha
      hidsOther hother (by simp +contextual) (.inl (by simp))).symm
  · rw [answered_eq_without (fun timed => !timed.isOf a) hapart ha hidsRun hrun (by simp)
        (.inr ⟨start, hstart⟩), hsame]
    exact (answered_eq_without (fun timed => !timed.isOf a) hapart ha hidsOther hother
      (by simp) (.inr ⟨start, hstartOther⟩)).symm

def sharingSettings : LimitSettings :=
  { requests := 1, windowSeconds := 3600, hourly := some 5, daily := none }

-- Two callers whose subjects differ by the name of the hour share a counter: the first request
-- of one uses up what the other has.
theorem budgets_shared :
    counterKey "user:x" .hour 0 = counterKey "user:x:hour" .primary 0 ∧
    (check sharingSettings 0 0 "user:x:hour" {}).1.toOption = some (.allowed 1 0) ∧
    (check sharingSettings 0 0 "user:x:hour" (check sharingSettings 0 0 "user:x" {}).2).1.toOption =
      some (.limited .primary 2 1 3600) := by
  decide +kernel

-- A caller whose subject ends in the name of a longer window, beside others that differ from it
-- in more than that.
theorem budgets_separate_hour :
    (answered sharingSettings
        [⟨0, 0, "user:x", .check⟩, ⟨0, 0, "user:y:hour", .check⟩, ⟨0, 0, "ip:unknown", .reset⟩]
        {}).filter (fun x => !x.1.isOf "user:x") =
      (answered sharingSettings
        [⟨0, 0, "user:y:hour", .check⟩, ⟨0, 0, "user:x", .reset⟩, ⟨0, 0, "ip:unknown", .reset⟩]
        {}).filter (fun x => !x.1.isOf "user:x") := by
  have hsubject (s : String) (h : "user:" ++ s ∈ ["user:x", "user:y:hour", "ip:unknown"]) :
      s = "x" ∨ s = "y:hour" := by
    have hx : "user:x" = "user:" ++ "x" := by decide
    have hy : "user:y:hour" = "user:" ++ "y:hour" := by decide
    have hunknown : "user:" ++ s ≠ "ip:unknown" := fun heq => by
      simpa using congrArg (·.toList.head?) heq
    rw [hx, hy] at h
    simpa only [List.mem_cons, List.not_mem_nil, hunknown, or_false, String.append_right_inj]
      using h
  refine (budgets_separate sharingSettings ["user:x", "user:y:hour", "ip:unknown"] ?_ ?_ "user:x"
    (by simp) _ _ (by simp) (by simp) (by simp) (by simp [Timed.isOf])).2.2.2 0 ?_ ?_
  · simp only [List.forall_mem_cons]
    exact ⟨.user "x", .user "y:hour", .unknown, List.forall_mem_nil _⟩
  · intro s t hs ht
    rcases hsubject s hs with rfl | rfl <;> rcases hsubject t ht with rfl | rfl <;>
      exact ⟨by decide, by decide⟩
  · simp [InStep, nowAt]
  · simp [InStep, nowAt]

end RequestGuard.Limiter
