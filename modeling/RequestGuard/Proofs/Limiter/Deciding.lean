import RequestGuard.Proofs.Limiter.History
import Mathlib.Data.List.MinMax
import Mathlib.Order.Bounds.Defs

namespace RequestGuard

namespace Window

variable {window : Window}

-- A later bucket begins when the time that is left has passed, and not before.
theorem bucket_lt_iff (hseconds : 0 < window.seconds) {now wait : Nat} :
    window.bucket now < window.bucket (now + wait) ↔ window.left now ≤ wait := by
  calc
    window.bucket now < window.bucket (now + wait) ↔
        (window.bucket now + 1) * window.seconds ≤ now + wait := Nat.le_div_iff_mul_le hseconds
    _ ↔ now + window.left now ≤ now + wait := by rw [bucket_end hseconds]
    _ ↔ window.left now ≤ wait := Nat.add_le_add_iff_left

end Window

namespace Limiter

variable {settings : LimitSettings} {identity : String} {clock now : Nat}

section Optimum

variable {α β : Type} [LinearOrder β] {p : α → Bool} {f : α → β} {c : α} {l : List α}

-- The first of the greatest splits the list: those before it are less, and those after it not
-- greater.
theorem split_of_mem_argmax_filter (h : c ∈ (l.filter p).argmax f) :
    ∃ before after, l = before ++ c :: after ∧ p c = true ∧
      (∀ d ∈ before, p d = true → f d < f c) ∧ ∀ d ∈ after, p d = true → f d ≤ f c := by
  induction l with
  | nil => simp at h
  | cons d rest ih =>
      by_cases hd : p d = true
      · rw [List.filter_cons_of_pos hd, List.argmax_cons] at h
        cases hrest : (rest.filter p).argmax f with
        | none =>
            rw [hrest] at h
            obtain rfl : d = c := by simpa using h
            have hempty := List.filter_eq_nil_iff.mp (List.argmax_eq_none.mp hrest)
            exact ⟨[], rest, rfl, hd, by simp, fun e he hp => absurd hp (hempty e he)⟩
        | some e =>
            rw [hrest] at h
            by_cases hless : f d < f e
            · obtain rfl : e = c := by simpa [hless] using h
              obtain ⟨before, after, rfl, hp, hbefore, hafter⟩ := ih hrest
              refine ⟨d :: before, after, rfl, hp, ?_, hafter⟩
              exact List.forall_mem_cons.mpr ⟨fun _ => hless, hbefore⟩
            · obtain rfl : d = c := by simpa [hless] using h
              refine ⟨[], rest, rfl, hd, by simp, fun x hx hp => ?_⟩
              have hle := List.le_of_mem_argmax (List.mem_filter.mpr ⟨hx, hp⟩) hrest
              exact hle.trans (not_lt.mp hless)
      · rw [List.filter_cons_of_neg hd] at h
        obtain ⟨before, after, rfl, hp, hbefore, hafter⟩ := ih h
        refine ⟨d :: before, after, rfl, hp, ?_, hafter⟩
        exact List.forall_mem_cons.mpr ⟨fun hp => absurd hp hd, hbefore⟩

theorem split_of_mem_argmin (h : c ∈ l.argmin f) :
    ∃ before after, l = before ++ c :: after ∧ (∀ d ∈ before, f c < f d) ∧
      ∀ d ∈ after, f c ≤ f d := by
  rw [← List.filter_true l] at h
  obtain ⟨before, after, rfl, -, hbefore, hafter⟩ :=
    split_of_mem_argmax_filter (β := βᵒᵈ) h
  exact ⟨before, after, rfl, fun d hd => hbefore d hd rfl, fun d hd => hafter d hd rfl⟩

-- Of two elements that split a list, one comes first.
theorem order_of_splits {α : Type} {a b : α} {before after earlier later : List α}
    (h : before ++ a :: after = earlier ++ b :: later) :
    a = b ∨ a ∈ earlier ∧ b ∈ after ∨ b ∈ before ∧ a ∈ later := by
  rcases List.append_eq_append_iff.mp h with ⟨middle, rfl, hmiddle⟩ | ⟨middle, rfl, hmiddle⟩
  · cases middle with
    | nil => exact .inl (List.cons.inj hmiddle).1
    | cons c middle =>
        obtain ⟨rfl, rfl⟩ := List.cons.inj hmiddle
        exact .inr (.inl (by simp))
  · cases middle with
    | nil => exact .inl (List.cons.inj hmiddle).1.symm
    | cons c middle =>
        obtain ⟨rfl, rfl⟩ := List.cons.inj hmiddle
        exact .inr (.inr (by simp))

end Optimum

-- The first of the windows exceeded that has the longest time left.
def Longest (windows : List Window) (count : Window → Nat) (now : Nat) (window : Window) : Prop :=
  ∃ before after, windows = before ++ window :: after ∧ window.limit < count window ∧
    (∀ other ∈ before, other.limit < count other → other.left now < window.left now) ∧
    ∀ other ∈ after, other.limit < count other → other.left now ≤ window.left now

-- The first of the windows with the least room.
def Tightest (windows : List Window) (count : Window → Nat) (window : Window) : Prop :=
  ∃ before after, windows = before ++ window :: after ∧
    (∀ other ∈ before, window.limit - count window < other.limit - count other) ∧
    ∀ other ∈ after, window.limit - count window ≤ other.limit - count other

section Decision

variable {windows : List Window} {count : Window → Nat} {window : Window}

theorem greatest_eq_argmax (value : Counted → Nat) (counts : List Counted) :
    Counted.greatest value counts = counts.argmax value := by
  induction counts with
  | nil => rfl
  | cons c rest ih =>
      rw [Counted.greatest, ih, List.argmax_cons]
      cases rest.argmax value with
      | none => rfl
      | some d => exact apply_ite some _ _ _

theorem least_eq_argmin (value : Counted → Nat) (counts : List Counted) :
    Counted.least value counts = counts.argmin value := by
  induction counts with
  | nil => rfl
  | cons c rest ih =>
      rw [Counted.least, ih, List.argmin_cons]
      cases rest.argmin value with
      | none => rfl
      | some d => exact apply_ite some _ _ _

theorem split_of_map_split {before after : List Counted} {c : Counted}
    (h : windows.map (fun window => ⟨window, count window⟩) = before ++ c :: after) :
    ∃ earlier later, windows = earlier ++ c.window :: later ∧ c.count = count c.window ∧
      before = earlier.map (fun window => ⟨window, count window⟩) ∧
      after = later.map (fun window => ⟨window, count window⟩) := by
  obtain ⟨earlier, rest, rfl, rfl, hrest⟩ := List.map_eq_append_iff.mp h
  obtain ⟨window, later, rfl, rfl, rfl⟩ := List.map_eq_cons_iff.mp hrest
  exact ⟨earlier, later, rfl, rfl, rfl, rfl⟩

theorem Longest.mem (h : Longest windows count now window) : window ∈ windows := by
  obtain ⟨before, after, rfl, -⟩ := h
  exact List.mem_append_right _ List.mem_cons_self

theorem Longest.exceeded (h : Longest windows count now window) :
    window.limit < count window := by
  obtain ⟨-, -, -, hexceeded, -⟩ := h
  exact hexceeded

theorem Longest.left_le (h : Longest windows count now window) {other : Window}
    (hmem : other ∈ windows) (hexceeded : other.limit < count other) :
    other.left now ≤ window.left now := by
  obtain ⟨before, after, rfl, -, hbefore, hafter⟩ := h
  rcases List.mem_append.mp hmem with hmem | hmem
  · exact Nat.le_of_lt (hbefore other hmem hexceeded)
  · rcases List.mem_cons.mp hmem with rfl | hmem
    · exact Nat.le_refl _
    · exact hafter other hmem hexceeded

theorem Tightest.mem (h : Tightest windows count window) : window ∈ windows := by
  obtain ⟨before, after, rfl, -⟩ := h
  exact List.mem_append_right _ List.mem_cons_self

theorem Tightest.room_le (h : Tightest windows count window) {other : Window}
    (hmem : other ∈ windows) :
    window.limit - count window ≤ other.limit - count other := by
  obtain ⟨before, after, rfl, hbefore, hafter⟩ := h
  rcases List.mem_append.mp hmem with hmem | hmem
  · exact Nat.le_of_lt (hbefore other hmem)
  · rcases List.mem_cons.mp hmem with rfl | hmem
    · exact Nat.le_refl _
    · exact hafter other hmem

theorem Tightest.unique {other : Window} (h : Tightest windows count window)
    (hother : Tightest windows count other) : window = other := by
  obtain ⟨before, after, hsplit, hbefore, hafter⟩ := h
  obtain ⟨earlier, later, hsplit', hearlier, hlater⟩ := hother
  rcases order_of_splits (hsplit.symm.trans hsplit') with heq | ⟨hmem, hmem'⟩ | ⟨hmem, hmem'⟩
  · exact heq
  · exact absurd (hearlier window hmem) (Nat.not_lt.mpr (hafter other hmem'))
  · exact absurd (hbefore other hmem) (Nat.not_lt.mpr (hlater window hmem'))

-- While the tightest window has room, counting on leaves it the tightest.
theorem Tightest.add {n : Nat} (h : Tightest windows count window)
    (hn : n ≤ window.limit - count window) : Tightest windows (count · + n) window := by
  obtain ⟨before, after, hsplit, hbefore, hafter⟩ := h
  refine ⟨before, after, hsplit, fun other hmem => ?_, fun other hmem => ?_⟩
  · have hless := hbefore other hmem
    show window.limit - (count window + n) < other.limit - (count other + n)
    omega
  · have hle := hafter other hmem
    show window.limit - (count window + n) ≤ other.limit - (count other + n)
    omega

-- Over a limit, the window that is told is the one to wait for.
theorem decision_eq_limited (hexceeded : ∃ window ∈ windows, window.limit < count window)
    (settings : LimitSettings) (now : Nat) :
    ∃ window, Longest windows count now window ∧
      decision settings now (windows.map fun window => ⟨window, count window⟩) =
        .limited window.name (count window) window.limit (window.left now) := by
  rw [decision, greatest_eq_argmax]
  cases hc : ((windows.map fun window => Counted.mk window (count window)).filter
      (·.isExceeded)).argmax (·.window.left now) with
  | none =>
      obtain ⟨window, hwindow, hlimit⟩ := hexceeded
      have hempty := List.filter_eq_nil_iff.mp (List.argmax_eq_none.mp hc)
      exact absurd (decide_eq_true hlimit) (hempty _ (List.mem_map_of_mem hwindow))
  | some c =>
      obtain ⟨before, after, hsplit, hc, hbefore, hafter⟩ := split_of_mem_argmax_filter hc
      obtain ⟨earlier, later, hwindows, hcount, rfl, rfl⟩ := split_of_map_split hsplit
      rw [List.forall_mem_map] at hbefore hafter
      refine ⟨c.window, ⟨earlier, later, hwindows, hcount ▸ of_decide_eq_true hc,
        fun other hmem hlimit => hbefore other hmem (decide_eq_true hlimit),
        fun other hmem hlimit => hafter other hmem (decide_eq_true hlimit)⟩, ?_⟩
      simp only [hcount]

-- Within all limits, the window that is told is the one with the least room.
theorem decision_eq_allowed (hwithin : ∀ window ∈ windows, count window ≤ window.limit)
    (hne : windows ≠ []) (settings : LimitSettings) (now : Nat) :
    ∃ window, Tightest windows count window ∧
      decision settings now (windows.map fun window => ⟨window, count window⟩) =
        .allowed window.limit (window.limit - count window) := by
  have hfilter : (windows.map fun window => Counted.mk window (count window)).filter
      (·.isExceeded) = [] := by
    simpa [Counted.isExceeded] using hwithin
  rw [decision, hfilter, Counted.greatest, least_eq_argmin]
  cases hc : (windows.map fun window => Counted.mk window (count window)).argmin
      (·.remaining) with
  | none => exact absurd (List.map_eq_nil_iff.mp (List.argmin_eq_none.mp hc)) hne
  | some c =>
      obtain ⟨before, after, hsplit, hbefore, hafter⟩ := split_of_mem_argmin hc
      obtain ⟨earlier, later, hwindows, hcount, rfl, rfl⟩ := split_of_map_split hsplit
      rw [List.forall_mem_map] at hbefore hafter
      simp only [Counted.remaining, hcount] at hbefore hafter ⊢
      exact ⟨c.window, ⟨earlier, later, hwindows, hbefore, hafter⟩, rfl⟩

-- The wait is the least after which every window exceeded has another bucket.
theorem Longest.isLeast (h : Longest windows count now window)
    (hseconds : ∀ other ∈ windows, 0 < other.seconds) :
    IsLeast {wait | ∀ other ∈ windows, other.limit < count other →
      other.bucket now < other.bucket (now + wait)} (window.left now) := by
  constructor
  · intro other hmem hexceeded
    exact (Window.bucket_lt_iff (hseconds other hmem)).mpr (h.left_le hmem hexceeded)
  · intro wait hwait
    exact (Window.bucket_lt_iff (hseconds window h.mem)).mp (hwait window h.mem h.exceeded)

end Decision

end Limiter

end RequestGuard
