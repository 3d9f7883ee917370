import RequestGuard.Limiter
import RequestGuard.Proofs.Text.Numeral

namespace RequestGuard

-- A text is split at its last separator in one way only.
theorem append_separator_inj {c : Char} {x y u v : List Char} (hu : c ∉ u) (hv : c ∉ v)
    (h : x ++ c :: u = y ++ c :: v) : x = y ∧ u = v := by
  rcases List.append_eq_append_iff.mp h with ⟨middle, hy, hmiddle⟩ | ⟨middle, hx, hmiddle⟩
  · cases middle with
    | nil => simpa [hy] using hmiddle
    | cons d rest =>
        rw [List.cons_append, List.cons.injEq] at hmiddle
        simp [hmiddle.2] at hu
  · cases middle with
    | nil => simpa [hx, eq_comm] using hmiddle
    | cons d rest =>
        rw [List.cons_append, List.cons.injEq] at hmiddle
        simp [hmiddle.2] at hv

def WindowName.suffix : WindowName → String
  | primary => ""
  | name => ":" ++ name.name

theorem counterKey_eq (identity : String) (window : WindowName) (bucket : Nat) :
    counterKey identity window bucket =
      "rate_limit:" ++ (identity ++ window.suffix) ++ ":" ++ decimal bucket := by
  cases window with
  | primary => simp [counterKey, WindowName.suffix, String.append_assoc]
  | hour => simp [counterKey, WindowName.suffix, String.append_assoc]
  | day => simp [counterKey, WindowName.suffix, String.append_assoc]

theorem colon_notMem_digits (n : Nat) : ':' ∉ Numeral.digits n := fun hmem =>
  absurd (Numeral.digits_isDigit n ':' hmem) (by decide)

-- A numeral has no colon, so the bucket begins behind the last one.
theorem counterKey_inj {a b : String} {m n : WindowName} {i j : Nat}
    (h : counterKey a m i = counterKey b n j) : a ++ m.suffix = b ++ n.suffix ∧ i = j := by
  have hlists := congrArg String.toList h
  simp only [counterKey_eq, decimal, String.toList_append, String.toList_ofList,
    List.append_assoc, List.append_cancel_left_eq] at hlists
  have hcolon : ":".toList = [':'] := by decide
  rw [hcolon, List.singleton_append, List.singleton_append, ← List.append_assoc,
    ← List.append_assoc] at hlists
  obtain ⟨hname, hbucket⟩ := append_separator_inj (colon_notMem_digits i) (colon_notMem_digits j)
    hlists
  refine ⟨String.toList_inj.mp ?_, Numeral.digits_injective hbucket⟩
  rw [String.toList_append, String.toList_append, hname]

-- The identity is not the other one with the name of a longer window behind it.
def Apart (identity other : String) : Prop :=
  identity ≠ other ++ ":hour" ∧ identity ≠ other ++ ":day"

theorem Apart.ne_suffix {a b : String} (h : Apart a b) {window : WindowName}
    (hwindow : window ≠ .primary) : a ≠ b ++ window.suffix := by
  cases window with
  | primary => contradiction
  | hour => exact h.1
  | day => exact h.2

theorem hour_ne_day (a b : String) : a ++ WindowName.hour.suffix ≠ b ++ WindowName.day.suffix := by
  intro h
  have hlast := congrArg (fun s => s.toList.getLast?) h
  simp [WindowName.suffix, WindowName.name] at hlast

theorem suffix_inj {a b : String} {m n : WindowName} (hab : Apart a b) (hba : Apart b a)
    (h : a ++ m.suffix = b ++ n.suffix) : a = b ∧ m = n := by
  by_cases hmn : m = n
  · subst hmn
    exact ⟨by simpa using h, rfl⟩
  have hempty : WindowName.primary.suffix = "" := rfl
  cases m with
  | primary =>
      rw [hempty, String.append_empty] at h
      exact absurd h (hab.ne_suffix (Ne.symm hmn))
  | hour =>
      cases n with
      | primary =>
          rw [hempty, String.append_empty] at h
          exact absurd h.symm (hba.ne_suffix hmn)
      | hour => contradiction
      | day => exact absurd h (hour_ne_day a b)
  | day =>
      cases n with
      | primary =>
          rw [hempty, String.append_empty] at h
          exact absurd h.symm (hba.ne_suffix hmn)
      | hour => exact absurd h.symm (hour_ne_day b a)
      | day => contradiction

theorem counterKey_apart {a b : String} {m n : WindowName} {i j : Nat} (hab : Apart a b)
    (hba : Apart b a) (h : counterKey a m i = counterKey b n j) : a = b ∧ m = n ∧ i = j := by
  obtain ⟨hname, hbucket⟩ := counterKey_inj h
  obtain ⟨hidentity, hwindow⟩ := suffix_inj hab hba hname
  exact ⟨hidentity, hwindow, hbucket⟩

end RequestGuard
