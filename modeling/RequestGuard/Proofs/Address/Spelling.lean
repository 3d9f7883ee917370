import RequestGuard.Address
import RequestGuard.Proofs.Text.Numeral
import RequestGuard.Proofs.Text.Span

namespace RequestGuard.Address

open Text (Ends span_iff ends_mark)

variable {text rest : List Char} {mark : Char} {a b c d : Octet} {group : Group}
  {front back : List Group} {first : Bool}

-- How addresses are spelled

def hexWord (digits : List Char) : Nat :=
  digits.foldl (fun total c => total * 16 + hexValue c) 0

-- One to four hexadecimal digits in either case, perhaps with zeros in front.
structure SpellsGroup (text : List Char) (group : Group) : Prop where
  nonempty : text ≠ []
  short : text.length ≤ 4
  hex : ∀ c ∈ text, Text.isHexDigit c = true
  value : hexWord text = group

-- Groups with colons between them. Four octets may stand for the last two, which the flag tells.
inductive SpellsRow : List Char → List Group → Bool → Prop where
  | one {text : List Char} {group : Group} (h : SpellsGroup text group) :
      SpellsRow text [group] false
  | octets (a b c d : Octet) : SpellsRow (octets a b c d) [pair a b, pair c d] true
  | more {text rest : List Char} {group : Group} {groups : List Group} {ended : Bool}
      (h : SpellsGroup text group) (hrest : SpellsRow rest groups ended) :
      SpellsRow (text ++ ':' :: rest) (group :: groups) ended

-- What stands on one side of two colons: a row, or nothing.
inductive SpellsSide : List Char → List Group → Bool → Prop where
  | nothing : SpellsSide [] [] false
  | row {text : List Char} {groups : List Group} {ended : Bool} (h : SpellsRow text groups ended) :
      SpellsSide text groups ended

-- Eight groups, with zeros for those that are missing.
def filled (front back : List Group) : List Group :=
  front ++ List.replicate (8 - front.length - back.length) ⟨0, by decide⟩ ++ back

theorem length_filled (h : front.length + back.length ≤ 7) :
    (filled front back).length = 8 := by
  simp only [filled, List.length_append, List.length_replicate]
  omega

-- All texts that stand for an address. Two colons stand for one missing group at least, and
-- no octets come before them.
inductive Spells : List Char → Address → Prop where
  | short (a b c d : Octet) : Spells (octets a b c d) (v4 a b c d)
  | long {text : List Char} {groups : List Group} {ended : Bool} (h : SpellsRow text groups ended)
      (hlength : groups.length = 8) : Spells text (v6 groups hlength)
  | elided {head tail : List Char} {front back : List Group} {ended : Bool}
      (hfront : SpellsSide head front false) (hback : SpellsSide tail back ended)
      (hroom : front.length + back.length ≤ 7) :
      Spells (head ++ ':' :: ':' :: tail) (v6 (filled front back) (length_filled hroom))

-- The readers of the parts, each by what it takes

theorem isHexDigit_of_isDigit {c : Char} (h : c.isDigit = true) : Text.isHexDigit c = true := by
  simp [Text.isHexDigit, h]

theorem readMark_iff : readMark mark text = some rest ↔ text = mark :: rest := by
  cases text with
  | nil => simp [readMark]
  | cons c text => by_cases hc : c = mark <;> simp [readMark, hc]

theorem readOctet_iff : readOctet text = some (a, rest) ↔
    text = Numeral.digits a ++ rest ∧ Ends Char.isDigit rest := by
  constructor
  · intro h
    unfold readOctet at h
    dsimp only at h
    split at h
    · contradiction
    next hgood =>
      split at h
      · next hsmall =>
          obtain ⟨rfl, rfl⟩ := Prod.mk.inj (Option.some.inj h)
          obtain ⟨htext, hdigits, hends⟩ := span_iff.mp ⟨rfl, rfl⟩
          simp only [Bool.or_eq_true, List.isEmpty_iff, decide_eq_true_eq, Bool.and_eq_true,
            beq_iff_eq, not_or, not_and] at hgood
          obtain ⟨⟨hne, -⟩, hpad⟩ := hgood
          refine ⟨?_, hends⟩
          rw [Numeral.digits_value hdigits hne hpad]
          exact htext
      · contradiction
  · rintro ⟨rfl, hends⟩
    obtain ⟨htake, hdrop⟩ := span_iff.mpr ⟨rfl, Numeral.digits_isDigit a, hends⟩
    have hne := Numeral.digits_ne_nil a
    have hlength : (Numeral.digits a).length ≤ 3 :=
      Numeral.length_digits_le (by omega) (by omega)
    have hpad : 1 < (Numeral.digits a).length → (Numeral.digits a).head? ≠ some '0' := by
      intro hlong
      apply Numeral.head?_digits
      intro hzero
      rw [hzero, Numeral.digits_zero] at hlong
      exact absurd hlong (by decide)
    have hvalue := Numeral.value_digits a
    unfold readOctet
    simp only [htake, hdrop, hvalue]
    rw [if_neg, dif_pos a.isLt]
    simp only [Bool.or_eq_true, List.isEmpty_iff, decide_eq_true_eq, Bool.and_eq_true,
      beq_iff_eq, not_or, not_and]
    exact ⟨⟨hne, Nat.not_lt.mpr hlength⟩, hpad⟩

theorem readOctets_iff : readOctets text = some ((a, b, c, d), rest) ↔
    text = octets a b c d ++ rest ∧ Ends Char.isDigit rest := by
  have hdot (rest : List Char) : Ends Char.isDigit ('.' :: rest) := ends_mark rfl rest
  simp only [readOctets, octets, Option.bind_eq_bind, Option.bind_eq_some_iff, Prod.exists,
    readOctet_iff, readMark_iff, Option.pure_def, Option.some.injEq, Prod.mk.injEq]
  constructor
  · rintro ⟨_, _, ⟨rfl, -⟩, _, rfl, _, _, ⟨rfl, -⟩, _, rfl, _, _, ⟨rfl, -⟩, _, rfl, _, _,
      ⟨rfl, hends⟩, ⟨rfl, rfl, rfl, rfl⟩, rfl⟩
    exact ⟨by simp, hends⟩
  · rintro ⟨rfl, hends⟩
    refine ⟨a, _, ⟨?_, hdot _⟩, _, rfl, b, _, ⟨rfl, hdot _⟩, _, rfl, c, _, ⟨rfl, hdot _⟩, _, rfl,
      d, rest, ⟨rfl, hends⟩, ⟨rfl, rfl, rfl, rfl⟩, rfl⟩
    simp

theorem readGroup_iff : readGroup text = some (group, rest) ↔
    ∃ digits, text = digits ++ rest ∧ SpellsGroup digits group ∧ Ends Text.isHexDigit rest := by
  constructor
  · intro h
    unfold readGroup at h
    dsimp only at h
    split at h
    · contradiction
    next hgood =>
      split at h
      · next hsmall =>
          obtain ⟨rfl, rfl⟩ := Prod.mk.inj (Option.some.inj h)
          obtain ⟨htext, hdigits, hends⟩ := span_iff.mp ⟨rfl, rfl⟩
          simp only [Bool.or_eq_true, List.isEmpty_iff, decide_eq_true_eq, not_or,
            Nat.not_lt] at hgood
          exact ⟨_, htext, ⟨hgood.1, hgood.2, hdigits, rfl⟩, hends⟩
      · contradiction
  · rintro ⟨digits, rfl, hgroup, hends⟩
    obtain ⟨htake, hdrop⟩ := span_iff.mpr ⟨rfl, hgroup.hex, hends⟩
    have hvalue : digits.foldl (fun total c => total * 16 + hexValue c) 0 = group.val :=
      hgroup.value
    unfold readGroup
    simp only [htake, hdrop, hvalue]
    rw [if_neg, dif_pos group.isLt]
    simp only [Bool.or_eq_true, List.isEmpty_iff, decide_eq_true_eq, not_or, Nat.not_lt]
    exact ⟨hgroup.nonempty, hgroup.short⟩

def spaced (first : Bool) (text : List Char) : List Char :=
  if first then text else ':' :: text

theorem separated_iff : separated first text = some rest ↔ text = spaced first rest := by
  cases first with
  | true => simp [separated, spaced]
  | false => exact readMark_iff

end RequestGuard.Address
