import RequestGuard.Proofs.Json.Intake
import RequestGuard.Proofs.Json.Magnitude
import RequestGuard.Proofs.Json.TypedFields

namespace RequestGuard.Json

open Binary64 (InRange)

variable {negative : Bool} {significand : Nat} {text rest : Bytes} {n : Number}

-- What becomes of a number with a fraction or an exponent, or of one that does not fit a word.
structure Real (text : Bytes) (n : Number) (rest : Bytes) : Prop where
  inRange : ∃ x, n = .real x ∧ InRange x
  taken : rest.length ≤ text.length

theorem Real.later {more : Bytes} (h : Real text n rest) (hmore : text.length ≤ more.length) :
    Real more n rest :=
  ⟨h.inRange, h.taken.trans hmore⟩

theorem real_ofParts {exponent : Int}
    (h : ofParts negative significand exponent text = .ok (n, rest)) : Real text n rest := by
  unfold ofParts at h
  split at h
  · next x hx =>
      cases h
      exact ⟨⟨x, rfl, Binary64.inRange_ofDecimal hx⟩, Nat.le_refl _⟩
  · contradiction

theorem inRange_zero (negative : Bool) : InRange (.zero negative) :=
  ⟨Nat.zero_le _, Int.le_refl _, by
    simp [Binary64.zero, Binary64.leastExponent, Binary64.greatestExponent]⟩

theorem length_readExponentDigits_le (total : Nat) (text : Bytes) :
    (readExponentDigits total text).2.2.length ≤ text.length := by
  induction text generalizing total with
  | nil => exact Nat.le_refl _
  | cons d rest ih =>
      simp only [readExponentDigits]
      split
      · split
        · exact (ih _).trans (Nat.le_succ _)
        · exact (List.dropWhile_sublist isDigit).length_le.trans (Nat.le_succ _)
      · exact Nat.le_refl _

theorem real_readExponent {start : Int}
    (h : readExponent negative significand start text = .ok (n, rest)) : Real text n rest := by
  unfold readExponent at h
  split at h
  next positive body hsign =>
  have hbody : body.length ≤ text.length := by
    split at hsign
    · cases hsign
      exact Nat.le_succ _
    · cases hsign
      exact Nat.le_succ _
    · cases hsign
      exact Nat.le_refl _
  split at h
  · contradiction
  · next d more =>
      have hdigits := length_readExponentDigits_le (digitValue d) more
      have hafter : (readExponentDigits (digitValue d) more).2.2.length ≤ text.length :=
        hdigits.trans (Nat.le_of_succ_le hbody)
      split at h
      · contradiction
      · split at h
        · next e after hread =>
            rw [hread] at hafter
            exact (real_ofParts h).later hafter
        · next e seen after hread =>
            rw [hread] at hafter
            split at h
            · contradiction
            · cases h
              exact ⟨⟨_, rfl, inRange_zero negative⟩, hafter⟩

theorem real_readFraction {start : Int}
    (h : readFraction negative significand start text = .ok (n, rest)) : Real text n rest := by
  have hdigits : (text.dropWhile isDigit).length ≤ text.length :=
    (List.dropWhile_sublist isDigit).length_le
  unfold readFraction at h
  dsimp only at h
  split at h
  · contradiction
  · contradiction
  · split at h
    · next hrest =>
        split at h
        · rw [hrest] at hdigits
          exact (real_readExponent h).later (Nat.le_of_succ_le hdigits)
        · exact (real_ofParts h).later hdigits
    · exact (real_ofParts h).later hdigits

theorem absorb_single (d : UInt8) : absorb 0 [d] = (digitValue d, 1, 0) := by
  have hsmall : 0 * 10 + digitValue d ≤ Numeral.maxWord := by
    have hbyte := d.toNat_lt
    unfold digitValue Numeral.maxWord
    omega
  simp only [absorb, if_pos hsmall]
  rw [Nat.zero_mul, Nat.zero_add]

-- Digits that are absorbed make up no more than they can.
theorem absorb_lt {digits : Bytes} (h : ∀ d ∈ digits, isDigit d = true) (s : Nat) :
    (absorb s digits).1 < (s + 1) * 10 ^ digits.length := by
  induction digits generalizing s with
  | nil => simp [absorb]
  | cons d digits ih =>
      obtain ⟨hd, hdigits⟩ := List.forall_mem_cons.mp h
      have hvalue : digitValue d ≤ 9 := by
        simp only [isDigit, Bool.and_eq_true, decide_eq_true_eq, UInt8.le_iff_toNat_le,
          UInt8.reduceToNat] at hd
        unfold digitValue
        omega
      rw [List.length_cons, Nat.pow_succ]
      simp only [absorb]
      split
      · calc (absorb (s * 10 + digitValue d) digits).1
            < (s * 10 + digitValue d + 1) * 10 ^ digits.length := ih hdigits _
          _ ≤ ((s + 1) * 10) * 10 ^ digits.length := Nat.mul_le_mul_right _ (by omega)
          _ = (s + 1) * (10 ^ digits.length * 10) := by
            rw [Nat.mul_assoc, Nat.mul_comm 10]
      · have hpos : 0 < 10 ^ digits.length := Nat.pow_pos (by decide)
        calc s < s + 1 := Nat.lt_succ_self s
          _ ≤ (s + 1) * (10 ^ digits.length * 10) := Nat.le_mul_of_pos_right _ (by omega)

theorem numberSize_integer (i : Int) :
    numberSize (.integer i) = (Numeral.digits i.natAbs).length + (decide (i < 0)).toNat := by
  have hdigits : (Utf8.encode (Numeral.digits i.natAbs)).length =
      (Numeral.digits i.natAbs).length := by
    rw [encode_digits (Numeral.digits_isDigit _), List.length_map]
  show (Utf8.encode (Number.integer i).written.toList).length = _
  by_cases hi : i < 0
  · rw [encode_number hi, List.length_cons, hdigits, decide_eq_true hi]
    rfl
  · rw [encode_natural (Int.not_lt.mp hi), hdigits, decide_eq_false hi]
    rfl

-- What so many bytes may be read as: a whole number that takes no more when it is written, or a
-- real number if there are two of them.
def Worth (n : Number) (taken : Nat) : Prop :=
  (∃ i, n = .integer i ∧ numberSize n ≤ taken) ∨ ∃ x, n = .real x ∧ InRange x ∧ 2 ≤ taken

theorem Real.worth {taken : Nat} (h : Real text n rest) (htaken : 2 ≤ taken) : Worth n taken := by
  obtain ⟨x, hx, hrange⟩ := h.inRange
  exact .inr ⟨x, hx, hrange, htaken⟩

theorem inRange_ofNat (negative : Bool) (s : Nat) :
    InRange ((Binary64.ofNat negative s).getD (.zero negative)) := by
  cases h : Binary64.ofNat negative s with
  | none => exact inRange_zero negative
  | some x => exact Binary64.inRange_nearest h

theorem worth_wholeNumber (negative : Bool) {s taken : Nat} (hs : s < 10 ^ taken)
    (htaken : 1 ≤ taken) : Worth (wholeNumber negative s) (taken + negative.toNat) := by
  have hlength := Numeral.length_digits_le hs htaken
  unfold wholeNumber
  split_ifs with hpositive hfits
  · refine .inl ⟨s, rfl, ?_⟩
    have hnatural : ¬(s : Int) < 0 := by omega
    rw [numberSize_integer, decide_eq_false hnatural, Int.natAbs_natCast]
    simp only [Bool.toNat_false]
    omega
  · have hnegative : negative = true := by simpa using hpositive
    have hlow : -(s : Int) < 0 := by
      simp only [Bool.and_eq_true, bne_iff_ne] at hfits
      omega
    refine .inl ⟨-s, rfl, ?_⟩
    rw [numberSize_integer, decide_eq_true hlow, Int.natAbs_neg, Int.natAbs_natCast, hnegative]
    simp only [Bool.toNat_true]
    omega
  · have hnegative : negative = true := by simpa using hpositive
    refine .inr ⟨_, rfl, inRange_ofNat true s, ?_⟩
    rw [hnegative]
    simp only [Bool.toNat_true]
    omega

theorem two_le_of_left {digits : Bytes} (h : (absorb 0 digits).2.2 ≠ 0) : 2 ≤ digits.length := by
  cases digits with
  | nil => contradiction
  | cons d more =>
      cases more with
      | nil =>
          rw [absorb_single] at h
          contradiction
      | cons e more =>
          simp only [List.length_cons]
          omega

theorem readNumberTail_intake {digits : Bytes} (hdigits : ∀ d ∈ digits, isDigit d = true)
    (hsome : 1 ≤ digits.length) (h : readNumberTail negative digits text = .ok (n, rest)) :
    ∃ taken, taken + rest.length ≤ digits.length + text.length + negative.toNat ∧
      Worth n taken := by
  have hsmall := absorb_lt hdigits 0
  rw [Nat.zero_add, Nat.one_mul] at hsmall
  -- a mark behind the digits is a second byte
  have hmarked : ∀ {mark : UInt8} {after : Bytes}, Real after n rest → ∃ taken,
      taken + rest.length ≤ digits.length + (mark :: after).length + negative.toNat ∧
        Worth n taken := by
    intro mark after hreal
    have htaken := hreal.taken
    refine ⟨2, ?_, hreal.worth (Nat.le_refl 2)⟩
    rw [List.length_cons]
    omega
  have hlong : ∀ {text : Bytes} {exponent : Int}, (absorb 0 digits).2.2 ≠ 0 →
      ofParts negative (absorb 0 digits).1 exponent text = .ok (n, rest) → ∃ taken,
      taken + rest.length ≤ digits.length + text.length + negative.toNat ∧ Worth n taken := by
    intro text exponent hleft hparts
    have hreal := real_ofParts hparts
    have htaken := hreal.taken
    have htwo := two_le_of_left hleft
    exact ⟨2, by omega, hreal.worth (Nat.le_refl 2)⟩
  have hwhole : ∀ {text : Bytes}, (.ok (wholeNumber negative (absorb 0 digits).1, text) :
      Except Fault (Number × Bytes)) = .ok (n, rest) → ∃ taken,
      taken + rest.length ≤ digits.length + text.length + negative.toNat ∧ Worth n taken := by
    intro text heq
    cases heq
    exact ⟨_, by omega, worth_wholeNumber negative hsmall hsome⟩
  unfold readNumberTail at h
  dsimp only at h
  split at h
  · exact hmarked (real_readFraction h)
  · split_ifs at h with hmark hleft
    · exact hmarked (real_readExponent h)
    · exact hwhole h
    · exact hlong hleft h
  · split_ifs at h with hleft
    · exact hwhole h
    · exact hlong hleft h

theorem readNumber_intake (h : readNumber negative text = .ok (n, rest)) :
    ∃ taken, taken + rest.length ≤ text.length + negative.toNat ∧ Worth n taken := by
  unfold readNumber at h
  split at h
  · contradiction
  · next d more =>
      have hone : ∀ {text : Bytes}, isDigit d = true →
          readNumberTail negative [d] text = .ok (n, rest) → ∃ taken,
          taken + rest.length ≤ (d :: text).length + negative.toNat ∧ Worth n taken := by
        intro text hd htail
        have hspent := readNumberTail_intake (List.forall_mem_singleton.mpr hd) (Nat.le_refl 1) htail
        rwa [List.length_singleton, Nat.add_comm 1] at hspent
      split_ifs at h with hzero hdigit
      · have hd : isDigit d = true := by
          rw [beq_iff_eq.mp hzero]
          decide
        split at h
        · split at h
          · contradiction
          · exact hone hd h
        · exact hone hd h
      · have hdigits : ∀ b ∈ d :: more.takeWhile isDigit, isDigit b = true :=
          List.forall_mem_cons.mpr ⟨hdigit, fun b hb => List.mem_takeWhile_imp hb⟩
        have hsplit : (more.takeWhile isDigit).length + (more.dropWhile isDigit).length =
            more.length := by
          rw [← List.length_append, List.takeWhile_append_dropWhile]
        obtain ⟨taken, htaken, hworth⟩ :=
          readNumberTail_intake hdigits (Nat.succ_le_succ (Nat.zero_le _)) h
        refine ⟨taken, ?_, hworth⟩
        rw [List.length_cons] at htaken ⊢
        omega

-- Two ways to pay for numbers: each byte of a whole number is worth one, and two bytes of a real
-- number are worth all that it is ever written with.

def wholeSize : Number → Nat
  | .integer n => numberSize (.integer n)
  | .real _ => 0

theorem paysNumbers_whole {price : Nat} (hprice : 1 ≤ price) : PaysNumbers price wholeSize := by
  intro negative text rest n h
  obtain ⟨taken, htaken, hworth⟩ := readNumber_intake h
  have hpaid := Nat.mul_le_mul_left price htaken
  rw [Nat.mul_add] at hpaid
  rcases hworth with ⟨i, rfl, hsize⟩ | ⟨x, rfl, -, -⟩
  · have hone : taken ≤ price * taken := Nat.le_mul_of_pos_left _ hprice
    simp only [wholeSize]
    omega
  · simp only [wholeSize]
    omega

theorem paysNumbers_written : PaysNumbers 12 numberSize := by
  intro negative text rest n h
  obtain ⟨taken, htaken, hworth⟩ := readNumber_intake h
  rcases hworth with ⟨i, rfl, hsize⟩ | ⟨x, rfl, hrange, htwo⟩
  · omega
  · have hsize : numberSize (.real x) ≤ 24 := Binary64.length_written_le hrange
    omega

end RequestGuard.Json
