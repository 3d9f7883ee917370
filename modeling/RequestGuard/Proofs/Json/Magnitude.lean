import RequestGuard.Json.Shortest
import RequestGuard.Proofs.Json.Literals
import Mathlib.Algebra.Order.Field.Power
import Mathlib.Algebra.Order.Field.Rat
import Mathlib.Tactic.Linarith
import Mathlib.Tactic.NormNum
import Mathlib.Tactic.Positivity
import Mathlib.Tactic.Ring
import Mathlib.Tactic.SplitIfs

namespace RequestGuard.Binary64

variable {negative : Bool} {num den : Nat} {x y z : Binary64}

-- Reading makes only numbers with a mantissa and an exponent of this size.
structure InRange (x : Binary64) : Prop where
  mantissa : x.mantissa ≤ 2 ^ 54
  least : leastExponent ≤ x.exponent
  greatest : x.exponent ≤ greatestExponent

theorem roundDiv_le (num den : Nat) : roundDiv num den ≤ num / den + 1 := by
  simp only [roundDiv]
  split
  · exact Nat.le_succ _
  · split
    · exact Nat.le_refl _
    · split
      · exact Nat.le_succ _
      · exact Nat.le_refl _

theorem le_exponentOf (num den : Nat) :
    (Nat.log2 num : Int) - Nat.log2 den - 53 ≤ exponentOf num den := by
  simp only [exponentOf]
  apply le_max_of_le_left
  split <;> omega

-- The logarithms of a fraction leave its quotient two digits more at most than it is to have.
theorem scaled_div_lt {e : Int} (h : (Nat.log2 num : Int) - Nat.log2 den - 53 ≤ e) :
    (scaled num den e).1 / (scaled num den e).2 < 2 ^ 54 := by
  by_cases hden : den = 0
  · rw [hden, scaled, Nat.zero_mul, Nat.div_zero]
    decide
  · have hpos : 0 < den * 2 ^ e.toNat := by positivity
    have hnum : num < 2 ^ (Nat.log2 num + 1) := Nat.lt_log2_self
    have hlow : 2 ^ Nat.log2 den ≤ den := Nat.log2_self_le hden
    have hexponents : Nat.log2 num + 1 + (-e).toNat ≤ 54 + (Nat.log2 den + e.toNat) := by omega
    apply (Nat.div_lt_iff_lt_mul hpos).mpr
    calc num * 2 ^ (-e).toNat
        < 2 ^ (Nat.log2 num + 1) * 2 ^ (-e).toNat := Nat.mul_lt_mul_of_pos_right hnum (by positivity)
      _ = 2 ^ (Nat.log2 num + 1 + (-e).toNat) := (Nat.pow_add ..).symm
      _ ≤ 2 ^ (54 + (Nat.log2 den + e.toNat)) := Nat.pow_le_pow_right (by decide) hexponents
      _ = 2 ^ 54 * (2 ^ Nat.log2 den * 2 ^ e.toNat) := by rw [Nat.pow_add, Nat.pow_add]
      _ ≤ 2 ^ 54 * (den * 2 ^ e.toNat) :=
        Nat.mul_le_mul_left _ (Nat.mul_le_mul_right _ hlow)

theorem inRange_nearest (h : nearest negative num den = some x) : InRange x := by
  simp only [nearest] at h
  split at h
  · cases h
    exact ⟨Nat.zero_le _, Int.le_refl _, by simp [leastExponent, greatestExponent]⟩
  · have hexponent := le_exponentOf num den
    have hquotient := scaled_div_lt hexponent
    have hrounded := roundDiv_le (scaled num den (exponentOf num den)).1
      (scaled num den (exponentOf num den)).2
    have hleast : leastExponent ≤ exponentOf num den := le_max_right _ _
    split_ifs at h with hcarry hgreatest hgreatest
    · cases h
      exact ⟨by simp [leadingBit], Int.le_add_one hleast, hgreatest⟩
    · cases h
      exact ⟨hrounded.trans hquotient, hleast, hgreatest⟩

theorem inRange_lowered {n : Nat} (h : x.lowered n = some y) : InRange y := by
  obtain ⟨z, -, hz⟩ := Option.bind_eq_some_iff.mp h
  obtain ⟨ten, -, hquotient⟩ := Option.bind_eq_some_iff.mp hz
  exact inRange_nearest hquotient

theorem inRange_ofDecimal {significand : Nat} {exponent : Int}
    (h : ofDecimal negative significand exponent = some x) : InRange x := by
  unfold ofDecimal at h
  split at h
  · contradiction
  · next rounded hrounded =>
      split_ifs at h
      · exact inRange_lowered h
      · cases h
        exact inRange_nearest hrounded
      · obtain ⟨ten, -, hproduct⟩ := Option.bind_eq_some_iff.mp h
        exact inRange_nearest hproduct

-- A number with an integer as its exponent is a fraction of two powers.
theorem pow_toNat_div (a : ℚ) (k : ℤ) : a ^ k.toNat / a ^ (-k).toNat = a ^ k := by
  rcases Int.eq_nat_or_neg k with ⟨n, rfl | rfl⟩
  · simp
  · simp

theorem belowPower_iff (a b : Nat) (k : Int) :
    belowPower a b k = true ↔ (a : ℚ) < b * 10 ^ k := by
  have hpos : (0 : ℚ) < 10 ^ (-k).toNat := by positivity
  rw [← pow_toNat_div, ← mul_div_assoc, lt_div_iff₀ hpos, belowPower, decide_eq_true_eq]
  exact_mod_cast Iff.rfl

-- The share of a decimal digit in a binary one, as it is guessed, errs by less than a digit over
-- the whole range of exponents.
theorem guess_checked : ∀ i : Nat, i < 2201 →
    2 ^ ((i : Int) - 1100 + 1).toNat * 10 ^ (-(((i : Int) - 1100) * 30103 / 100000 + 2)).toNat ≤
      10 ^ (((i : Int) - 1100) * 30103 / 100000 + 2).toNat * 2 ^ (-((i : Int) - 1100 + 1)).toNat := by
  decide +kernel

theorem two_pow_le {l : Int} (hlow : -1100 ≤ l) (hhigh : l ≤ 1100) :
    (2 : ℚ) ^ (l + 1) ≤ 10 ^ (l * 30103 / 100000 + 2) := by
  have hchecked := guess_checked (l + 1100).toNat (by omega)
  have hl : ((l + 1100).toNat : Int) - 1100 = l := by omega
  rw [hl] at hchecked
  rw [← pow_toNat_div, ← pow_toNat_div, div_le_div_iff₀ (by positivity) (by positivity)]
  exact_mod_cast hchecked

-- The first digit of a fraction is not further left than its decimal exponent says.
theorem lt_decimalExponent (hden : den ≠ 0) (hlow : -1100 ≤ (Nat.log2 num : Int) - Nat.log2 den)
    (hhigh : (Nat.log2 num : Int) - Nat.log2 den ≤ 1100) :
    (num : ℚ) < den * 10 ^ (decimalExponent num den + 1) := by
  simp only [decimalExponent]
  set guess : Int := ((Nat.log2 num : Int) - Nat.log2 den) * 30103 / 100000 with hguess
  split_ifs with hfirst hsecond hthird
  · rw [belowPower_iff] at hfirst
    rwa [show guess - 2 + 1 = guess - 1 by omega]
  · rw [belowPower_iff] at hsecond
    rwa [show guess - 1 + 1 = guess by omega]
  · rwa [belowPower_iff] at hthird
  · have hnum : (num : ℚ) < 2 ^ (Nat.log2 num + 1) := by exact_mod_cast Nat.lt_log2_self
    have hpow : (2 : ℚ) ^ Nat.log2 den ≤ den := by exact_mod_cast Nat.log2_self_le hden
    have hratio := two_pow_le hlow hhigh
    rw [← hguess] at hratio
    rw [show guess + 1 + 1 = guess + 2 by omega]
    calc (num : ℚ)
        < 2 ^ (Nat.log2 num + 1) := hnum
      _ = 2 ^ Nat.log2 den * 2 ^ ((Nat.log2 num : Int) - Nat.log2 den + 1) := by
        rw [← zpow_natCast, ← zpow_natCast, ← zpow_add₀ (by norm_num)]
        congr 1
        push_cast
        omega
      _ ≤ den * 10 ^ (guess + 2) := mul_le_mul hpow hratio (by positivity) (by positivity)

theorem log2_fraction (hx : InRange x) :
    -1100 ≤ (Nat.log2 x.fraction.1 : Int) - Nat.log2 x.fraction.2 ∧
      (Nat.log2 x.fraction.1 : Int) - Nat.log2 x.fraction.2 ≤ 1100 := by
  obtain ⟨hmantissa, hleast, hgreatest⟩ := hx
  unfold leastExponent at hleast
  unfold greatestExponent at hgreatest
  have hden : Nat.log2 x.fraction.2 = (-x.exponent).toNat := Nat.log2_two_pow
  have hnum : Nat.log2 x.fraction.1 < 1026 := by
    by_cases hzero : x.fraction.1 = 0
    · rw [hzero]
      decide
    · apply (Nat.log2_lt hzero).mpr
      calc x.mantissa * 2 ^ x.exponent.toNat
          ≤ 2 ^ 54 * 2 ^ x.exponent.toNat := Nat.mul_le_mul_right _ hmantissa
        _ = 2 ^ (54 + x.exponent.toNat) := (Nat.pow_add ..).symm
        _ < 2 ^ 1026 := Nat.pow_lt_pow_right (by decide) (by omega)
  omega

theorem lt_of_inRange (hx : InRange x) :
    (x.mantissa : ℚ) * 2 ^ x.exponent <
      10 ^ (decimalExponent x.fraction.1 x.fraction.2 + 1) := by
  obtain ⟨hlow, hhigh⟩ := log2_fraction hx
  have hden : x.fraction.2 ≠ 0 := Nat.ne_of_gt (Nat.two_pow_pos _)
  have hpos : (0 : ℚ) < 2 ^ (-x.exponent).toNat := by positivity
  have hlt := lt_decimalExponent hden hlow hhigh
  rw [mul_comm, ← div_lt_iff₀ (by exact_mod_cast Nat.pos_of_ne_zero hden)] at hlt
  have hvalue : (x.fraction.1 : ℚ) / x.fraction.2 = x.mantissa * 2 ^ x.exponent := by
    rw [← pow_toNat_div 2 x.exponent, ← mul_div_assoc]
    simp [fraction]
  rwa [hvalue] at hlt

theorem onGrid_le {i : Interval} {k : Int} {c : Nat} (h : i.onGrid k = some c) :
    c ≤ i.middle * 10 ^ (-k).toNat * 2 ^ i.exponent.toNat /
      (10 ^ k.toNat * 2 ^ (-i.exponent).toNat) + 1 := by
  simp only [Interval.onGrid] at h
  split at h
  · cases h
    exact roundDiv_le _ _
  · cases h
    exact Nat.le_succ _
  · cases h
    exact Nat.le_refl _
  · contradiction

-- On a grid that is so many places behind the first digit there are no more digits than that.
theorem onGrid_interval_le (hx : InRange x) {places : Nat} (hplaces : places ≤ 16) {c : Nat}
    (h : x.interval.onGrid (decimalExponent x.fraction.1 x.fraction.2 - places) = some c) :
    c ≤ 10 ^ 17 := by
  have hle := onGrid_le h
  set k : Int := decimalExponent x.fraction.1 x.fraction.2 - places with hk
  have hvalue : ((4 * x.mantissa : Nat) : ℚ) * 2 ^ (x.exponent - 2) < 10 ^ 17 * 10 ^ k := by
    have hlt := lt_of_inRange hx
    have hfour : ((4 * x.mantissa : Nat) : ℚ) * 2 ^ (x.exponent - 2) =
        x.mantissa * 2 ^ x.exponent := by
      rw [zpow_sub₀ (by norm_num)]
      push_cast
      ring
    have hpow : (10 : ℚ) ^ (decimalExponent x.fraction.1 x.fraction.2 + 1) ≤ 10 ^ (17 + k) :=
      zpow_le_zpow_right₀ (by norm_num) (by omega)
    rw [zpow_add₀ (by norm_num) 17 k] at hpow
    rw [hfour]
    exact hlt.trans_le (by exact_mod_cast hpow)
  rw [← pow_toNat_div 2, ← pow_toNat_div 10, ← mul_div_assoc, ← mul_div_assoc,
    div_lt_div_iff₀ (by positivity) (by positivity)] at hvalue
  have hpos : 0 < 10 ^ k.toNat * 2 ^ (-(x.exponent - 2)).toNat := by positivity
  have hquotient : 4 * x.mantissa * 10 ^ (-k).toNat * 2 ^ (x.exponent - 2).toNat /
      (10 ^ k.toNat * 2 ^ (-(x.exponent - 2)).toNat) < 10 ^ 17 := by
    apply (Nat.div_lt_iff_lt_mul hpos).mpr
    rw [Nat.mul_right_comm, ← Nat.mul_assoc]
    exact_mod_cast hvalue
  exact hle.trans hquotient

theorem firstGrid_spec (i : Interval) (top : Int) (more places : Nat) :
    ∃ p ≤ places + more, (firstGrid i top more places).2 = top - p ∧
      ((firstGrid i top more places).1 = 0 ∨
        i.onGrid (top - p) = some (firstGrid i top more places).1) := by
  induction more generalizing places with
  | zero =>
      refine ⟨places, Nat.le_refl _, rfl, ?_⟩
      rw [firstGrid]
      cases i.onGrid (top - places) with
      | none => exact .inl rfl
      | some c => exact .inr rfl
  | succ more ih =>
      rw [firstGrid]
      split
      · next c hc => exact ⟨places, Nat.le_add_right _ _, rfl, .inr hc⟩
      · obtain ⟨p, hp, hspec⟩ := ih (places + 1)
        exact ⟨p, by omega, hspec⟩

theorem decimalExponent_range (hx : InRange x) :
    -350 ≤ decimalExponent x.fraction.1 x.fraction.2 ∧
      decimalExponent x.fraction.1 x.fraction.2 ≤ 350 := by
  obtain ⟨hlow, hhigh⟩ := log2_fraction hx
  simp only [decimalExponent]
  split_ifs
  all_goals omega

-- Zeros at the end are not written, so a power of ten has one digit.
theorem length_stripped_le {c : Nat} (h : c ≤ 10 ^ 17) :
    ((Numeral.digits c).reverse.dropWhile (· == '0')).reverse.length ≤ 17 := by
  by_cases hc : c = 10 ^ 17
  · rw [hc]
    decide +kernel
  · have hdigits := Numeral.length_digits_le (n := c) (k := 17) (by omega) (by decide)
    have hstripped := (List.dropWhile_sublist (l := (Numeral.digits c).reverse) (· == '0')).length_le
    rw [List.length_reverse] at hstripped ⊢
    omega

theorem length_shortest_le (hx : InRange x) :
    x.shortest.1.length ≤ 17 ∧ x.shortest.2.natAbs < 1000 := by
  obtain ⟨hlow, hhigh⟩ := decimalExponent_range hx
  obtain ⟨p, hp, hplace, hgrid⟩ :=
    firstGrid_spec x.interval (decimalExponent x.fraction.1 x.fraction.2) 16 0
  rw [Nat.zero_add] at hp
  have hc : (firstGrid x.interval (decimalExponent x.fraction.1 x.fraction.2) 16 0).1 ≤ 10 ^ 17 := by
    rcases hgrid with hzero | hgrid
    · omega
    · exact onGrid_interval_le hx hp hgrid
  have hdigits := Numeral.length_digits_le (k := 18) (Nat.lt_of_le_of_lt hc (by decide)) (by decide)
  refine ⟨length_stripped_le hc, ?_⟩
  simp only [shortest, hplace]
  omega

-- The digits of a number with their decimal exponent, as they are written without a sign.
def unsigned (digits : List Char) (e : Int) : List Char :=
  if e < -5 || 15 < e then
    let point := if digits.length ≤ 1 then [] else ['.'] ++ digits.tail
    digits.take 1 ++ point ++ ['e', if e < 0 then '-' else '+'] ++ Numeral.digits e.natAbs
  else if e < 0 then
    ['0', '.'] ++ List.replicate (e.natAbs - 1) '0' ++ digits
  else
    let whole := digits.take (e.toNat + 1)
    let part := digits.drop (e.toNat + 1)
    whole ++ List.replicate (e.toNat + 1 - whole.length) '0' ++ ['.'] ++
      (if part.isEmpty then ['0'] else part)

def leading (x : Binary64) : List Char × Int :=
  if x.isZero then (['0'], 0) else x.shortest

theorem written_eq (x : Binary64) :
    x.written = String.ofList (if x.negative then '-' :: unsigned x.leading.1 x.leading.2
      else unsigned x.leading.1 x.leading.2) := rfl

theorem length_unsigned_le {digits : List Char} {e : Int} (hdigits : digits.length ≤ 17)
    (he : e.natAbs < 1000) : (unsigned digits e).length ≤ 23 := by
  have hexponent := Numeral.length_digits_le (n := e.natAbs) (k := 3) he (by decide)
  unfold unsigned
  dsimp only
  split
  · have hpoint : (if digits.length ≤ 1 then [] else ['.'] ++ digits.tail).length ≤ 17 := by
      split
      · exact Nat.zero_le _
      · rw [List.length_append, List.length_singleton, List.length_tail]
        omega
    simp only [List.length_append, List.length_take, List.length_cons, List.length_nil]
    omega
  · next hpositional =>
      rw [Bool.or_eq_true, decide_eq_true_eq, decide_eq_true_eq] at hpositional
      split
      · simp only [List.length_append, List.length_replicate, List.length_cons, List.length_nil]
        omega
      · have hpart : (if (digits.drop (e.toNat + 1)).isEmpty then ['0']
            else digits.drop (e.toNat + 1)).length ≤ max 1 (digits.length - (e.toNat + 1)) := by
          split
          · exact le_max_left _ _
          · rw [List.length_drop]
            exact le_max_right _ _
        simp only [List.length_append, List.length_take, List.length_replicate, List.length_cons,
          List.length_nil]
        omega

def Ascii (text : List Char) : Prop :=
  ∀ c ∈ text, c.toNat < 0x80

theorem ascii_digits (n : Nat) : Ascii (Numeral.digits n) :=
  fun c hc => (Json.digitByte_of_isDigit (Numeral.digits_isDigit n c hc)).2.2

theorem ascii_nil : Ascii [] :=
  fun _ hc => absurd hc List.not_mem_nil

theorem Ascii.cons {c : Char} {text : List Char} (hc : c.toNat < 0x80) (h : Ascii text) :
    Ascii (c :: text) :=
  List.forall_mem_cons.mpr ⟨hc, h⟩

theorem Ascii.append {text more : List Char} (h : Ascii text) (hmore : Ascii more) :
    Ascii (text ++ more) :=
  List.forall_mem_append.mpr ⟨h, hmore⟩

theorem Ascii.of_sublist {text more : List Char} (h : Ascii more) (hsub : text.Sublist more) :
    Ascii text :=
  fun c hc => h c (hsub.subset hc)

theorem ascii_zeros (n : Nat) : Ascii (List.replicate n '0') := by
  intro c hc
  rw [List.eq_of_mem_replicate hc]
  decide

theorem ascii_unsigned {digits : List Char} (h : Ascii digits) (e : Int) :
    Ascii (unsigned digits e) := by
  have hexponent := ascii_digits e.natAbs
  have hpoint : Ascii ['.'] := .cons (by decide) ascii_nil
  have hzero : Ascii ['0'] := .cons (by decide) ascii_nil
  have hmark {sign : Char} (hsign : sign.toNat < 0x80) : Ascii ['e', sign] :=
    .cons (by decide) (.cons hsign ascii_nil)
  unfold unsigned
  dsimp only
  split
  · refine Ascii.append (.append (.append (h.of_sublist (List.take_sublist _ _)) ?_) ?_) hexponent
    · split
      · exact ascii_nil
      · exact hpoint.append (h.of_sublist (List.tail_sublist _))
    · split
      · exact hmark (by decide)
      · exact hmark (by decide)
  · split
    · exact .append (.append (hzero.append hpoint) (ascii_zeros _)) h
    · refine .append (.append (.append (h.of_sublist (List.take_sublist _ _)) (ascii_zeros _))
        hpoint) ?_
      split
      · exact hzero
      · exact h.of_sublist (List.drop_sublist _ _)

theorem ascii_shortest (x : Binary64) : Ascii x.shortest.1 := by
  have hsub : ∀ text : List Char,
      (text.reverse.dropWhile (· == '0')).reverse.Sublist text := by
    intro text
    have hreverse := (List.dropWhile_sublist (l := text.reverse) (· == '0')).reverse
    rwa [List.reverse_reverse] at hreverse
  exact (ascii_digits _).of_sublist (hsub _)

theorem leading_spec (hx : InRange x) :
    Ascii x.leading.1 ∧ x.leading.1.length ≤ 17 ∧ x.leading.2.natAbs < 1000 := by
  unfold leading
  split
  · exact ⟨ascii_zeros 1, by decide, by decide⟩
  · exact ⟨ascii_shortest x, length_shortest_le hx⟩

-- The longest numbers have a sign, seventeen digits, a point and an exponent of three digits, or
-- four zeros behind the point in place of the exponent.
theorem length_written_le (hx : InRange x) : (bytesOf x.written).length ≤ 24 := by
  obtain ⟨hascii, hdigits, hexponent⟩ := leading_spec hx
  have hunsigned := length_unsigned_le hdigits hexponent
  have hbytes : (Utf8.encode (unsigned x.leading.1 x.leading.2)).length ≤ 23 := by
    rw [Utf8.encode_ascii (ascii_unsigned hascii _), List.length_map]
    exact hunsigned
  rw [written_eq, Utf8.bytesOf_ofList]
  split
  · have hminus : (String.utf8EncodeChar '-').length = 1 := by decide
    rw [Utf8.encode_cons, List.length_append, hminus]
    omega
  · omega

end RequestGuard.Binary64
