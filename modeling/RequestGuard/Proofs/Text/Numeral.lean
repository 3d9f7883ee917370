import RequestGuard.Text.Numeral
import Mathlib.Algebra.Group.Nat.Defs
import Mathlib.Data.List.Induction

namespace RequestGuard

namespace Numeral

theorem digitOf_isDigit : ∀ n < 10, (digitOf n).isDigit = true := by decide

theorem digitOf_value : ∀ n < 10, (digitOf n).toNat - 48 = n := by decide

theorem digits_isDigit (n : Nat) : ∀ c ∈ digits n, c.isDigit = true := by
  induction n using digits.induct with
  | case1 n hsmall =>
      rw [digits, if_pos hsmall]
      simpa using digitOf_isDigit n hsmall
  | case2 n hlarge ih =>
      rw [digits, if_neg hlarge]
      intro c hc
      rcases List.mem_append.mp hc with hc | hc
      · exact ih c hc
      · rw [List.mem_singleton.mp hc]
        exact digitOf_isDigit _ (Nat.mod_lt n (by omega))

theorem digits_ne_nil (n : Nat) : digits n ≠ [] := by
  rw [digits]
  split <;> simp

theorem digits_zero : digits 0 = ['0'] := by
  rw [digits]
  rfl

-- Only zero begins with a zero.
theorem head?_digits {n : Nat} (h : n ≠ 0) : (digits n).head? ≠ some '0' := by
  induction n using digits.induct with
  | case1 n hsmall =>
      have hdigit : ∀ d < 10, d ≠ 0 → digitOf d ≠ '0' := by decide
      rw [digits, if_pos hsmall]
      simpa using hdigit n hsmall h
  | case2 n hlarge ih =>
      obtain ⟨c, rest, hcons⟩ := List.exists_cons_of_ne_nil (digits_ne_nil (n / 10))
      have hfirst := ih (by omega)
      rw [digits, if_neg hlarge]
      rw [hcons] at hfirst ⊢
      exact hfirst

theorem length_digits_le {n k : Nat} (h : n < 10 ^ k) (hk : 1 ≤ k) : (digits n).length ≤ k := by
  induction n using digits.induct generalizing k with
  | case1 n hsmall =>
      rw [digits, if_pos hsmall]
      exact hk
  | case2 n hlarge ih =>
      obtain ⟨j, rfl⟩ := Nat.exists_eq_add_of_le' hk
      have hj : 1 ≤ j := Nat.pos_of_ne_zero fun hzero => by
        rw [hzero, Nat.zero_add, Nat.pow_one] at h
        omega
      have hquotient : n / 10 < 10 ^ j := by
        rw [Nat.pow_succ] at h
        omega
      have hlength := ih hquotient hj
      rw [digits, if_neg hlarge, List.length_append, List.length_singleton]
      omega

theorem value_append_singleton (text : List Char) (c : Char) :
    value (text ++ [c]) = value text * 10 + (c.toNat - 48) := by
  simp [value]

theorem value_digits (n : Nat) : value (digits n) = n := by
  induction n using digits.induct with
  | case1 n hsmall =>
      rw [digits, if_pos hsmall]
      simpa [value] using digitOf_value n hsmall
  | case2 n hlarge ih =>
      rw [digits, if_neg hlarge, value_append_singleton, ih,
        digitOf_value _ (Nat.mod_lt n (by omega))]
      omega

theorem digits_injective {m n : Nat} (h : digits m = digits n) : m = n := by
  rw [← value_digits m, h, value_digits]

theorem digitOf_of_isDigit {c : Char} (h : c.isDigit = true) :
    digitOf (c.toNat - 48) = c ∧ c.toNat - 48 < 10 := by
  have hrange : 48 ≤ c.toNat ∧ c.toNat ≤ 57 := by
    simp only [Char.isDigit, Bool.and_eq_true, decide_eq_true_eq] at h
    exact ⟨UInt32.le_iff_toNat_le.mp h.1, UInt32.le_iff_toNat_le.mp h.2⟩
  have hcode : 48 + (c.toNat - 48) = c.toNat := by omega
  exact ⟨by rw [digitOf, hcode, Char.ofNat_toNat], by omega⟩

-- Digits without a zero in front are those of their value.
theorem digits_value {text : List Char} (hdigits : ∀ c ∈ text, c.isDigit = true)
    (hne : text ≠ []) (hpad : 1 < text.length → text.head? ≠ some '0') :
    digits (value text) = text := by
  induction text using List.reverseRecOn with
  | nil => exact absurd rfl hne
  | append_singleton front c ih =>
      obtain ⟨hfront, hc⟩ := List.forall_mem_append.mp hdigits
      obtain ⟨hdigit, hsmall⟩ := digitOf_of_isDigit (hc c (List.mem_singleton_self c))
      rw [value_append_singleton]
      by_cases hnil : front = []
      · subst hnil
        rw [digits]
        simp [value, hsmall, hdigit]
      · have hlength : 1 ≤ front.length := List.length_pos_iff.mpr hnil
        have hhead : front.head? ≠ some '0' := by
          intro hzero
          apply hpad
          · simp only [List.length_append, List.length_singleton]
            omega
          · rw [List.head?_append, hzero, Option.some_or]
        have hvalue := ih hfront hnil fun _ => hhead
        have hpositive : value front ≠ 0 := by
          intro hzero
          rw [hzero, digits_zero] at hvalue
          rw [← hvalue] at hhead
          exact hhead rfl
        have hquotient : (value front * 10 + (c.toNat - 48)) / 10 = value front := by omega
        have hrest : (value front * 10 + (c.toNat - 48)) % 10 = c.toNat - 48 := by omega
        rw [digits, if_neg (by omega), hquotient, hrest, hvalue, hdigit]

-- A text of digits does not begin with a plus sign, so all of it is read.
theorem readWord_of_isDigit {text : List Char} (hne : text ≠ [])
    (hdigits : ∀ c ∈ text, c.isDigit = true) (hfit : value text ≤ maxWord) :
    readWord text = some (value text) := by
  have hall : text.all Char.isDigit = true := List.all_eq_true.mpr hdigits
  unfold readWord
  dsimp only
  split
  · have hplus := hdigits '+' List.mem_cons_self
    contradiction
  · simp [hne, hall, hfit]

end Numeral

theorem readWord_decimal {n : Nat} (hn : n ≤ Numeral.maxWord) : readWord (decimal n) = some n := by
  rw [readWord, decimal, String.toList_ofList]
  have hvalue := Numeral.value_digits n
  have hread := Numeral.readWord_of_isDigit (Numeral.digits_ne_nil n) (Numeral.digits_isDigit n)
  rw [hvalue] at hread
  exact hread hn

end RequestGuard
