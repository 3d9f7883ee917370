import RequestGuard.Proofs.Limiter.History
import Mathlib.Algebra.Group.Nat.Defs
import Mathlib.Data.List.Induction
import Mathlib.Tactic.Choose

namespace RequestGuard.Limiter

open Store (tallied)

variable {settings : LimitSettings} {start : Nat}

-- Under every key of a bucket that has not ended the store holds the count of the history,
-- and holds it until the bucket has ended.
def Tracks (settings : LimitSettings) (start : Nat) (identities : List String) (history : List Step)
    (clock : Nat) (store : Store) : Prop :=
  ∀ identity ∈ identities, ∀ window ∈ settings.windows, ∀ bucket,
    window.bucket (nowAt start clock) ≤ bucket →
    ∃ deadline, (bucket + 1) * window.seconds * 1000 ≤ start + deadline ∧
      store.find? (counterKey identity window.name bucket) =
        tallied (counted settings start history identity window bucket) deadline

variable {identities : List String} {history : List Step} {clock : Nat} {store : Store}

theorem Tracks.empty : Tracks settings start identities [] 0 {} := by
  intro identity _ window _ bucket _
  refine ⟨(bucket + 1) * window.seconds * 1000, Nat.le_add_left _ _, ?_⟩
  have hzero : counted settings start [] identity window bucket = 0 := by simp [counted]
  rw [hzero]
  rfl

theorem bucket_nowAt_mono {window : Window} {later : Nat} (hle : clock ≤ later) :
    window.bucket (nowAt start clock) ≤ window.bucket (nowAt start later) :=
  window.bucket_mono (Nat.div_le_div_right (Nat.add_le_add_left hle start))

theorem Tracks.later (h : Tracks settings start identities history clock store) {later : Nat}
    (hle : clock ≤ later) : Tracks settings start identities history later store := by
  intro identity hid window hwindow bucket hbucket
  exact h identity hid window hwindow bucket (Nat.le_trans (bucket_nowAt_mono hle) hbucket)

-- What is tracked has not expired.
theorem deadline_later {window : Window} (hwindow : window ∈ settings.windows)
    {bucket deadline : Nat} (hbucket : window.bucket (nowAt start clock) ≤ bucket)
    (hdeadline : (bucket + 1) * window.seconds * 1000 ≤ start + deadline) : clock < deadline := by
  have hlt := Window.lt_bucket_end (LimitSettings.seconds_pos hwindow) hbucket
  unfold nowAt at hlt
  omega

variable {step : Step}

-- The keys that a step touches are those that it is counted under.
theorem key_ne_of_not_concerns (hapart : ∀ a ∈ identities, ∀ b ∈ identities, Apart a b)
    (hstep : step.identity ∈ identities) {identity : String} (hid : identity ∈ identities)
    {window : Window} (hwindow : window ∈ settings.windows) {bucket : Nat}
    (h : ¬Concerns start identity window bucket step) :
    ∀ other ∈ settings.windows, counterKey identity window.name bucket ≠
      other.key step.identity (nowAt start step.clock) := by
  intro other hother hkey
  obtain ⟨hidentity, hname, hbucket⟩ :=
    counterKey_apart (hapart _ hid _ hstep) (hapart _ hstep _ hid) hkey
  have hsame := List.inj_on_of_nodup_map settings.names_nodup hwindow hother hname
  subst hsame
  exact h ⟨hidentity.symm, hbucket.symm⟩

-- A step that counts nothing keeps what is tracked if it keeps what is live.
theorem Tracks.uncounted (h : Tracks settings start identities history clock store)
    {next : Store} (hcounted : ∀ identity window bucket,
      counted settings start (history ++ [step]) identity window bucket =
        counted settings start history identity window bucket)
    (hnext : ∀ key, store.live clock key = store.find? key → next.find? key = store.find? key) :
    Tracks settings start identities (history ++ [step]) clock next := by
  intro identity hid window hwindow bucket hbucket
  obtain ⟨deadline, hend, hfind⟩ := h identity hid window hwindow bucket hbucket
  have hfresh := deadline_later hwindow hbucket hend
  refine ⟨deadline, hend, ?_⟩
  rw [hcounted, hnext _ (Store.live_of_tallied hfind hfresh), hfind]

theorem counted_listed_step (hlisted : isListed settings step.identity = true)
    (identity : String) (window : Window) (bucket : Nat) :
    counted settings start (history ++ [step]) identity window bucket =
      counted settings start history identity window bucket := by
  by_cases h : Concerns start identity window bucket step
  · rw [h.1] at hlisted
    rw [counted_of_listed hlisted, counted_of_listed hlisted]
  · exact counted_other h

-- One step, by the kind of call: it answers as the history asks, and the store tracks on.
def Follows (settings : LimitSettings) (start : Nat) (identities : List String)
    (history : List Step) (step : Step) (store : Store) : Prop :=
  ∃ answer, ∃ next : Store,
    perform settings start step ⟨.working, store⟩ = (answer, ⟨.working, next⟩) ∧
      Exact settings start history step answer ∧
      Tracks settings start identities (history ++ [step]) step.clock next

theorem usage_follows (h : Tracks settings start identities history step.clock store)
    (hcall : step.call = .usage) (hstep : step.identity ∈ identities)
    (hlength : history.length < Numeral.maxWord) :
    Follows settings start identities history step store := by
  obtain ⟨deadline, hend, hfind⟩ := h _ hstep _ settings.primary_mem _ (Nat.le_refl _)
  have hfresh := deadline_later settings.primary_mem (Nat.le_refl _) hend
  have hcount : ((store.get step.clock (settings.primary.key step.identity
      (nowAt start step.clock))).1.bind readWord).getD 0 = counted settings start history
        step.identity settings.primary (settings.primary.bucket (nowAt start step.clock)) :=
    Store.get_tallied hfind hfresh (Nat.le_trans counted_le_length (Nat.le_of_lt hlength))
  refine ⟨.used (.done (counted settings start history step.identity settings.primary
      (settings.primary.bucket (nowAt start step.clock)))),
    (store.get step.clock (settings.primary.key step.identity (nowAt start step.clock))).2, ?_, ?_,
    h.uncounted (fun _ _ _ => counted_usage hcall) fun key hkey => Store.find?_get hkey⟩
  · simp only [perform, performAt, hcall, usage, Backend.get_working, hcount]
  · simp only [Exact, hcall]

theorem blacklisted_follows (h : Tracks settings start identities history step.clock store)
    (hcall : step.call = .check) (hblack : settings.isBlacklisted step.identity = true) :
    Follows settings start identities history step store := by
  have hlisted : isListed settings step.identity = true := by simp [isListed, hblack]
  refine ⟨.decided (.ok .blocked), store, ?_, ?_,
    h.uncounted (counted_listed_step hlisted) fun _ _ => rfl⟩
  · simp [perform, performAt, hcall, check, hblack]
  · simp [Exact, hcall, Decides, hblack]

theorem whitelisted_follows (h : Tracks settings start identities history step.clock store)
    (hcall : step.call = .check) (hblack : settings.isBlacklisted step.identity = false)
    (hwhite : settings.isWhitelisted step.identity = true) :
    Follows settings start identities history step store := by
  have hlisted : isListed settings step.identity = true := by simp [isListed, hwhite]
  refine ⟨.decided (.ok .bypassed), store, ?_, ?_,
    h.uncounted (counted_listed_step hlisted) fun _ _ => rfl⟩
  · simp [perform, performAt, hcall, check, hblack, hwhite]
  · simp [Exact, hcall, Decides, hblack, hwhite]

theorem left_room {window : Window} (hwindow : window ∈ settings.windows)
    (hroom : clock + window.seconds * 1000 < Store.endOfTime) (now : Nat) :
    clock + max (window.left now) 1 * 1000 < Store.endOfTime := by
  have hpos := Window.left_pos (LimitSettings.seconds_pos hwindow) now
  have hle := window.left_le now
  rw [Nat.max_eq_left hpos]
  exact Nat.lt_of_le_of_lt (Nat.add_le_add_left (Nat.mul_le_mul_right 1000 hle) clock) hroom

theorem bucket_end_le {window : Window} (hwindow : window ∈ settings.windows) :
    (window.bucket (nowAt start clock) + 1) * window.seconds * 1000 ≤
      start + (clock + max (window.left (nowAt start clock)) 1 * 1000) := by
  have hend := Window.bucket_end (LimitSettings.seconds_pos hwindow) (nowAt start clock)
  have hpos := Window.left_pos (LimitSettings.seconds_pos hwindow) (nowAt start clock)
  have hnow : nowAt start clock * 1000 ≤ start + clock := Nat.div_mul_le_self _ _
  rw [hend, Nat.max_eq_left hpos, Nat.add_mul, ← Nat.add_assoc]
  exact Nat.add_le_add_right hnow _

-- The check that opens a bucket sets a deadline that is not before the end of the bucket.
theorem counting_follows (h : Tracks settings start identities history step.clock store)
    (hcall : step.call = .check) (hlisted : isListed settings step.identity = false)
    (hapart : ∀ a ∈ identities, ∀ b ∈ identities, Apart a b)
    (hstep : step.identity ∈ identities) (hlength : history.length < Numeral.maxWord)
    (hroom : ∀ window ∈ settings.windows,
      step.clock + window.seconds * 1000 < Store.endOfTime) :
    Follows settings start identities history step store := by
  let now := nowAt start step.clock
  let count (window : Window) : Nat :=
    counted settings start history step.identity window (window.bucket now)
  obtain ⟨hblack, hwhite⟩ := Bool.or_eq_false_iff.mp hlisted
  have hheld : ∀ window ∈ settings.windows, ∃ deadline,
      (window.bucket now + 1) * window.seconds * 1000 ≤ start + deadline ∧
        store.find? (window.key step.identity now) = tallied (count window) deadline :=
    fun window hwindow => h _ hstep _ hwindow _ (Nat.le_refl _)
  choose! deadline hend hfind using hheld
  have hfresh : ∀ window ∈ settings.windows, step.clock < deadline window :=
    fun window hwindow => deadline_later hwindow (Nat.le_refl _) (hend window hwindow)
  have hcountMax : ∀ window ∈ settings.windows, count window < Numeral.maxWord :=
    fun _ _ => Nat.lt_of_le_of_lt counted_le_length hlength
  obtain ⟨next, hcount, hcounted, hframe⟩ := countAll_tallied settings.names_nodup hfind hfresh
    hcountMax fun window hwindow => left_room hwindow (hroom window hwindow) now
  refine ⟨.decided (.ok (decision settings now (settings.windows.map fun window =>
      ⟨window, count window + 1⟩))), next, ?_, ?_, ?_⟩
  · simp [perform, performAt, hcall, check, hblack, hwhite, now, hcount]
  · simp only [Exact, hcall]
    exact ⟨_, rfl, decision_decides settings hlisted count now⟩
  · intro identity hid window hwindow bucket hbucket
    by_cases hconcerns : Concerns start identity window bucket step
    · obtain ⟨rfl, rfl⟩ := hconcerns
      rw [counted_check ⟨rfl, rfl⟩ hlisted hcall]
      refine ⟨_, ?_, hcounted window hwindow⟩
      split
      · exact bucket_end_le hwindow
      · exact hend window hwindow
    · obtain ⟨held, hheldEnd, hheld⟩ := h identity hid window hwindow bucket hbucket
      refine ⟨held, hheldEnd, ?_⟩
      rw [counted_other hconcerns, ← hheld]
      exact hframe _ (key_ne_of_not_concerns hapart hstep hid hwindow hconcerns)
        (Store.live_of_tallied hheld (deadline_later hwindow hbucket hheldEnd))

theorem reset_follows (h : Tracks settings start identities history step.clock store)
    (hcall : step.call = .reset)
    (hapart : ∀ a ∈ identities, ∀ b ∈ identities, Apart a b)
    (hstep : step.identity ∈ identities) :
    Follows settings start identities history step store := by
  obtain ⟨existed, next, hreset, hexisted, herased, hframe⟩ := resetAll_erased step.identity
    (nowAt start step.clock) settings.windows store settings.names_nodup
  refine ⟨.cleared (.done existed), next, ?_, ?_, ?_⟩
  · simp only [perform, performAt, hcall, reset, hreset]
  · simp only [Exact, hcall]
    refine ⟨existed, rfl, hexisted.trans ?_⟩
    refine exists_congr fun window => and_congr_right fun hwindow => ?_
    obtain ⟨deadline, -, hfind⟩ := h _ hstep _ hwindow _ (Nat.le_refl _)
    rw [← Store.tallied_isSome _ deadline, ← hfind]
    rfl
  · intro identity hid window hwindow bucket hbucket
    by_cases hconcerns : Concerns start identity window bucket step
    · obtain ⟨rfl, rfl⟩ := hconcerns
      refine ⟨_, Nat.le_add_left _ _, ?_⟩
      rw [counted_reset ⟨rfl, rfl⟩ hcall]
      exact herased window hwindow
    · obtain ⟨deadline, hend, hfind⟩ := h identity hid window hwindow bucket hbucket
      refine ⟨deadline, hend, ?_⟩
      rw [counted_other hconcerns, ← hfind]
      exact hframe _ (key_ne_of_not_concerns hapart hstep hid hwindow hconcerns)

-- The clock of the store reaches beyond the end of every window.
def Reaches (settings : LimitSettings) (clock : Nat) : Prop :=
  ∀ window ∈ settings.windows, clock + window.seconds * 1000 < Store.endOfTime

theorem step_follows (h : Tracks settings start identities history step.clock store)
    (hapart : ∀ a ∈ identities, ∀ b ∈ identities, Apart a b)
    (hstep : step.identity ∈ identities) (hlength : history.length < Numeral.maxWord)
    (hroom : Reaches settings step.clock) :
    Follows settings start identities history step store := by
  cases hcall : step.call with
  | usage => exact usage_follows h hcall hstep hlength
  | reset => exact reset_follows h hcall hapart hstep
  | check =>
      cases hblack : settings.isBlacklisted step.identity with
      | true => exact blacklisted_follows h hcall hblack
      | false =>
          cases hwhite : settings.isWhitelisted step.identity with
          | true => exact whitelisted_follows h hcall hblack hwhite
          | false =>
              have hlisted : isListed settings step.identity = false := by
                simp [isListed, hblack, hwhite]
              exact counting_follows h hcall hlisted hapart hstep hlength hroom

theorem after_append (run : List Step) (backend : Backend) :
    after settings start (run ++ [step]) backend =
      (perform settings start step (after settings start run backend)).2 := by
  simp [after]

-- A whole run from an empty store, by induction on what came before its last step.
theorem run_tracks (run : List Step) (hforward : run.Pairwise (·.clock ≤ ·.clock))
    (hapart : ∀ a ∈ identities, ∀ b ∈ identities, Apart a b)
    (hids : ∀ step ∈ run, step.identity ∈ identities) (hlength : run.length < Numeral.maxWord)
    (hroom : ∀ step ∈ run, Reaches settings step.clock) :
    ∃ store : Store, after settings start run {} = ⟨.working, store⟩ ∧
      ∀ clock, (∀ step ∈ run, step.clock ≤ clock) →
        Tracks settings start identities run clock store := by
  induction run using List.reverseRecOn with
  | nil => exact ⟨{}, rfl, fun clock _ => Tracks.empty.later (Nat.zero_le clock)⟩
  | append_singleton earlier step ih =>
      rw [List.pairwise_append] at hforward
      rw [List.length_append, List.length_singleton] at hlength
      obtain ⟨hidsEarlier, hid⟩ := List.forall_mem_append.mp hids
      obtain ⟨hroomEarlier, hroomStep⟩ := List.forall_mem_append.mp hroom
      have hbefore : ∀ other ∈ earlier, other.clock ≤ step.clock :=
        fun other hother => hforward.2.2 other hother step (List.mem_singleton_self step)
      obtain ⟨store, hafter, htracks⟩ := ih hforward.1 hidsEarlier (by omega) hroomEarlier
      obtain ⟨answer, next, hperform, -, hnext⟩ := step_follows (htracks step.clock hbefore) hapart
        (hid step (List.mem_singleton_self step)) (by omega)
        (hroomStep step (List.mem_singleton_self step))
      refine ⟨next, ?_, fun clock hclock => hnext.later ?_⟩
      · rw [after_append, hafter, hperform]
      · exact hclock step (List.mem_append_right earlier (List.mem_singleton_self step))

-- Over any run that starts with an empty store, every call is answered by the count of the
-- checks that came before it in the bucket.
theorem admission_exact (settings : LimitSettings) (start : Nat) (run : List Step)
    (hlength : run.length < 2 ^ 63) (hforward : run.Pairwise (·.clock ≤ ·.clock))
    (hroom : ∀ step ∈ run, Reaches settings step.clock)
    (hapart : ∀ step ∈ run, ∀ other ∈ run, Apart step.identity other.identity)
    (earlier later : List Step) (step : Step) (hrun : run = earlier ++ step :: later) :
    Exact settings start earlier step
      (perform settings start step (after settings start earlier {})).1 := by
  subst hrun
  have hstep : step ∈ earlier ++ step :: later := List.mem_append_right _ List.mem_cons_self
  have hearlier : ∀ other ∈ earlier, other ∈ earlier ++ step :: later :=
    fun other hother => List.mem_append_left _ hother
  have hmax : (earlier ++ step :: later).length < Numeral.maxWord :=
    Nat.lt_trans hlength (by decide)
  rw [List.length_append, List.length_cons] at hmax
  rw [List.pairwise_append] at hforward
  have hapart : ∀ a ∈ (earlier ++ step :: later).map (·.identity),
      ∀ b ∈ (earlier ++ step :: later).map (·.identity), Apart a b := by
    intro a ha b hb
    obtain ⟨one, hone, rfl⟩ := List.mem_map.mp ha
    obtain ⟨two, htwo, rfl⟩ := List.mem_map.mp hb
    exact hapart one hone two htwo
  obtain ⟨store, hafter, htracks⟩ := run_tracks earlier hforward.1 hapart
    (fun other hother => List.mem_map_of_mem (hearlier other hother)) (by omega)
    (fun other hother => hroom other (hearlier other hother))
  have hnow := htracks step.clock fun other hother =>
    hforward.2.2 other hother step List.mem_cons_self
  obtain ⟨answer, next, hperform, hexact, -⟩ := step_follows hnow hapart
    (List.mem_map_of_mem hstep) (by omega) (hroom step hstep)
  rw [hafter, hperform]
  exact hexact

-- The first check of a bucket, half a second into the clock of the limiter, and behind it those of
-- callers on the lists.
theorem admission_exact_next_bucket :
    let settings : LimitSettings :=
      { requests := 1, hourly := some 2, whitelist := ["c", "d"], blacklist := ["d"] }
    let earlier : List Step :=
      [⟨0, "a", .check⟩, ⟨1000, "b", .check⟩, ⟨59499, "a", .check⟩, ⟨59499, "b", .reset⟩]
    let first : Step := ⟨59500, "a", .check⟩
    let second : Step := ⟨59500, "c", .check⟩
    let third : Step := ⟨70000, "d", .check⟩
    let answer (history : List Step) (step : Step) : Answer :=
      (perform settings 500 step (after settings 500 history {})).1
    Exact settings 500 earlier first (answer earlier first) ∧
      answer (earlier ++ [first]) second = .decided (.ok .bypassed) ∧
      answer (earlier ++ [first, second]) third = .decided (.ok .blocked) := by
  intro settings earlier first second third answer
  have hroom : ∀ step ∈ earlier ++ [first, second, third], Reaches settings step.clock := by
    unfold Reaches
    decide
  have hapart : ∀ step ∈ earlier ++ [first, second, third],
      ∀ other ∈ earlier ++ [first, second, third], Apart step.identity other.identity := by
    unfold Apart
    decide
  have hexact (history later : List Step) (step : Step)
      (hrun : earlier ++ [first, second, third] = history ++ step :: later) :
      Exact settings 500 history step (answer history step) :=
    admission_exact settings 500 _ (by decide) (by decide) hroom hapart history later step hrun
  obtain ⟨passed, hsecond, -, hpassed, -⟩ := hexact (earlier ++ [first]) [third] second rfl
  obtain ⟨barred, hthird, hbarred, -⟩ := hexact (earlier ++ [first, second]) [] third rfl
  obtain rfl : passed = .bypassed := hpassed.mpr (by decide)
  obtain rfl : barred = .blocked := hbarred.mpr (by decide)
  exact ⟨hexact earlier [second, third] first rfl, hsecond, hthird⟩

end RequestGuard.Limiter
