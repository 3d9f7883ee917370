import RequestGuard.Proofs.Pattern.Characters
import RequestGuard.Validation.Request
import Mathlib.Data.List.Basic

namespace RequestGuard

namespace Text

theorem toLower_eq_or_capital (c : Char) :
    c.toLower = c ∨ ∃ n < 26, c = Char.ofNat (65 + n) := by
  by_cases hupper : c.val ≥ 'A'.val ∧ c.val ≤ 'Z'.val
  · have hlow : 65 ≤ c.toNat := UInt32.le_iff_toNat_le.mp hupper.1
    have hhigh : c.toNat ≤ 90 := UInt32.le_iff_toNat_le.mp hupper.2
    have hcode : 65 + (c.toNat - 65) = c.toNat := by omega
    exact .inr ⟨c.toNat - 65, by omega, by rw [hcode, Char.ofNat_toNat]⟩
  · exact .inl (dif_neg hupper)

-- What is the same for each capital and its small letter does not see the case of a character.
theorem eq_toLower {f : Char → α}
    (h : ∀ n < 26, f (Char.ofNat (65 + n)).toLower = f (Char.ofNat (65 + n))) (c : Char) :
    f c.toLower = f c := by
  rcases toLower_eq_or_capital c with hsame | ⟨n, hn, rfl⟩
  · rw [hsame]
  · exact h n hn

theorem isWord_toLower : ∀ c : Char, isWord c.toLower = isWord c :=
  eq_toLower (by decide)

theorem isBlank_toLower : ∀ c : Char, isBlank c.toLower = isBlank c :=
  eq_toLower (by decide)

theorem fold_toLower : ∀ c : Char, fold c.toLower = fold c :=
  eq_toLower (by decide)

theorem isDigit_toLower : ∀ c : Char, c.toLower.isDigit = c.isDigit :=
  eq_toLower (by decide)

-- No letter of either case is taken for another character.
theorem beq_toLower {d : Char} (hd : d.isAlpha = false) (c : Char) : (c.toLower == d) = (c == d) := by
  have hletters : ∀ n < 26, (Char.ofNat (65 + n)).isAlpha = true ∧
      (Char.ofNat (65 + n)).toLower.isAlpha = true := by decide
  have hother {e : Char} (he : e.isAlpha = true) : (e == d) = false := by
    rw [beq_eq_false_iff_ne]
    rintro rfl
    exact absurd (he.symm.trans hd) (by decide)
  apply eq_toLower (f := (· == d))
  intro n hn
  rw [hother (hletters n hn).1, hother (hletters n hn).2]

end Text

-- A set that holds a letter in both cases or not at all.
def CharSet.caseless : CharSet → Bool
  | exactly c => !c.isAlpha
  | either a b => a.caseless && b.caseless
  | except a => a.caseless
  | _ => true

theorem CharSet.has_toLower {set : CharSet} (h : set.caseless = true) (c : Char) :
    set.has c.toLower = set.has c := by
  induction set with
  | exactly d => exact Text.beq_toLower (Bool.not_eq_true' _ ▸ h) c
  | folded d => rw [has, has, Text.fold_toLower]
  | letter => rw [has, has, Text.fold_toLower]
  | digit => exact Text.isDigit_toLower c
  | blank => exact Text.isBlank_toLower c
  | word => exact Text.isWord_toLower c
  | either a b iha ihb =>
      obtain ⟨ha, hb⟩ := Bool.and_eq_true_iff.mp h
      rw [has, has, iha ha, ihb hb]
  | except a ih => rw [has, has, ih h]

namespace Pattern

def caseless : Pattern → Bool
  | one set => set.caseless
  | seq p q => p.caseless && q.caseless
  | or p q => p.caseless && q.caseless
  | star p => p.caseless
  | _ => true

-- Two texts that differ at most in the case of letters.
def SameLetters (text other : List Char) : Prop :=
  other.map Char.toLower = text.map Char.toLower

variable {p : Pattern} {before after : Option Char} {text other u v : List Char} {c : Char}

theorem SameLetters.symm (h : SameLetters text other) : SameLetters other text :=
  Eq.symm h

theorem SameLetters.exists_append (h : SameLetters (u ++ v) other) :
    ∃ u' v', other = u' ++ v' ∧ SameLetters u u' ∧ SameLetters v v' := by
  rw [SameLetters, List.map_append] at h
  exact List.map_eq_append_iff.mp h

theorem SameLetters.exists_cons (h : SameLetters (c :: text) other) :
    ∃ c' text', other = c' :: text' ∧ c'.toLower = c.toLower ∧ SameLetters text text' := by
  rw [SameLetters, List.map_cons] at h
  exact List.map_eq_cons_iff.mp h

theorem SameLetters.eq_nil (h : SameLetters [] other) : other = [] :=
  List.map_eq_nil_iff.mp h

theorem isWord_of_toLower {c' : Char} (h : c'.toLower = c.toLower) :
    Text.isWord c' = Text.isWord c := by
  rw [← Text.isWord_toLower c', h, Text.isWord_toLower]

-- The neighbours of a match are seen only as members of words, which letters are in either case.

theorem SameLetters.isWordAt_firstOr (h : SameLetters text other) (after : Option Char) :
    isWordAt (firstOr text after) = isWordAt (firstOr other after) := by
  cases text with
  | nil => rw [h.eq_nil]
  | cons c text =>
      obtain ⟨c', text', rfl, hc, -⟩ := h.exists_cons
      exact (isWord_of_toLower hc).symm

theorem SameLetters.isWordAt_lastOr (h : SameLetters text other) (before : Option Char) :
    isWordAt (lastOr before text) = isWordAt (lastOr before other) := by
  induction text generalizing before other with
  | nil => rw [h.eq_nil]
  | cons c text ih =>
      obtain ⟨c', text', rfl, hc, htext⟩ := h.exists_cons
      have hcase : isWordAt (some c) = isWordAt (some c') := (isWord_of_toLower hc).symm
      rw [lastOr_cons, lastOr_cons, ← ih htext]
      exact Pattern.isWordAt_lastOr hcase text

theorem SameLetters.isWordAt_head? (h : SameLetters text other) :
    isWordAt text.head? = isWordAt other.head? := by
  have hfirst := h.isWordAt_firstOr none
  rwa [firstOr, firstOr, Option.or_none, Option.or_none] at hfirst

theorem Matches.recase (h : Matches p before text after) (hp : p.caseless = true)
    (hother : SameLetters text other) : Matches p before other after := by
  induction h generalizing other with
  | nothing =>
      rw [hother.eq_nil]
      exact .nothing
  | edge hedge =>
      rw [hother.eq_nil]
      exact .edge hedge
  | one hset =>
      obtain ⟨c', text', rfl, hc, htext⟩ := hother.exists_cons
      rw [htext.eq_nil]
      apply Matches.one
      rw [← CharSet.has_toLower hp, hc, CharSet.has_toLower hp, hset]
  | seq _ _ ihp ihq =>
      obtain ⟨hp, hq⟩ := Bool.and_eq_true_iff.mp hp
      obtain ⟨u', v', rfl, hu, hv⟩ := hother.exists_append
      have hfirst := (ihp hp hu).congr rfl (hv.isWordAt_firstOr _)
      have hsecond := (ihq hq hv).congr (hu.isWordAt_lastOr _) rfl
      exact .seq hfirst hsecond
  | left _ ih => exact .left (ih (Bool.and_eq_true_iff.mp hp).1 hother)
  | right _ ih => exact .right (ih (Bool.and_eq_true_iff.mp hp).2 hother)
  | done =>
      rw [hother.eq_nil]
      exact .done
  | more _ _ ihp ihs =>
      obtain ⟨u', v', rfl, hu, hv⟩ := hother.exists_append
      obtain ⟨c', u', rfl, -, -⟩ := hu.exists_cons
      have hfirst := (ihp hp hu).congr rfl (hv.isWordAt_firstOr _)
      have hrest := (ihs hp hv).congr (hu.isWordAt_lastOr _) rfl
      exact .more hfirst hrest

theorem Found.recase (h : Found p before text) (hp : p.caseless = true)
    (hother : SameLetters text other) : Found p before other := by
  obtain ⟨u, v, w, rfl, hmatches⟩ := found_iff.mp h
  obtain ⟨u', _, rfl, hu, hbehind⟩ := hother.exists_append
  obtain ⟨v', w', rfl, hv, hw⟩ := hbehind.exists_append
  have hrecased := (hmatches.recase hp hv).congr (hu.isWordAt_lastOr before) hw.isWordAt_head?
  exact found_iff.mpr ⟨u', v', w', rfl, hrecased⟩

theorem occursIn_recase (hp : p.caseless = true) (h : SameLetters text other) :
    p.occursIn other = p.occursIn text := by
  rw [Bool.eq_iff_iff, occursIn_iff, occursIn_iff]
  exact ⟨fun hfound => hfound.recase hp h.symm, fun hfound => hfound.recase hp h⟩

-- The ends of a text are like characters that belong to no word, so nothing is lost between two
-- such characters.
theorem Found.surrounded (h : Found p none text) {a b : List Char}
    (ha : isWordAt (lastOr none a) = false) (hb : isWordAt b.head? = false) :
    Found p none (a ++ (text ++ b)) := by
  obtain ⟨u, v, w, rfl, hmatches⟩ := found_iff.mp h
  have hend : isWordAt none = isWordAt (lastOr none a) := ha.symm
  have hbefore : isWordAt (lastOr none u) = isWordAt (lastOr none (a ++ u)) := by
    rw [lastOr_append]
    exact Pattern.isWordAt_lastOr hend u
  have hafter : isWordAt w.head? = isWordAt (w ++ b).head? := by
    cases w with
    | nil => exact hb.symm
    | cons c w => rfl
  refine found_iff.mpr ⟨a ++ u, v, w ++ b, ?_, hmatches.congr hbefore hafter⟩
  simp only [List.append_assoc]

theorem occursIn_surrounded (h : p.occursIn text = true) (a b : List Char) :
    p.occursIn (a ++ ' ' :: (text ++ ' ' :: b)) = true := by
  have hblank : isWordAt (some ' ') = false := by decide +kernel
  have hbefore : isWordAt (lastOr none (a ++ [' '])) = false := by
    rw [lastOr, List.getLast?_concat]
    exact hblank
  rw [occursIn_iff] at h ⊢
  have hfound := h.surrounded hbefore (b := ' ' :: b) hblank
  rwa [List.append_assoc] at hfound

end Pattern

namespace Attack

theorem script_caseless : script.caseless = true := by decide

theorem query_caseless : query.caseless = true := by decide

end Attack

namespace Validation

open Pattern (SameLetters occursIn_recase occursIn_surrounded)

def Detector.pattern : Detector → Pattern
  | script => Attack.script
  | query => Attack.query

theorem detects_eq (detector : Detector) (s : String) :
    detector.detects s = detector.pattern.occursIn s.toList := by
  cases detector <;> rfl

theorem pattern_caseless (detector : Detector) : detector.pattern.caseless = true := by
  cases detector with
  | script => exact Attack.script_caseless
  | query => exact Attack.query_caseless

-- An attack is found in any case of its letters, and behind and before any other text that a
-- blank keeps apart from it.
theorem detection_undisguised (detector : Detector) (s : String) :
    (∀ t, lowered t = lowered s → detector.detects t = detector.detects s) ∧
    (detector.detects s = true →
      ∀ a b : String, detector.detects (a ++ " " ++ s ++ " " ++ b) = true) := by
  constructor
  · intro t hletters
    rw [detects_eq, detects_eq]
    exact occursIn_recase (pattern_caseless detector) (String.ofList_injective hletters)
  · intro hdetects a b
    rw [detects_eq] at hdetects ⊢
    have hsurrounded := occursIn_surrounded hdetects a.toList b.toList
    simpa [String.toList_append] using hsurrounded

-- In capitals, and between two words.
theorem detection_undisguised_of_union :
    lowered "UNION Select" = lowered "union select" ∧
      Detector.query.detects "union select" = true ∧
      Detector.query.detects "UNION Select" = true ∧
      Detector.query.detects ("1" ++ " " ++ "union select" ++ " " ++ "x") = true := by
  have hletters : lowered "UNION Select" = lowered "union select" := by decide
  have hdetects : Detector.query.detects "union select" = true := by decide +kernel
  obtain ⟨hcase, hsurrounded⟩ := detection_undisguised .query "union select"
  exact ⟨hletters, hdetects, (hcase _ hletters).trans hdetects, hsurrounded hdetects "1" "x"⟩

end Validation

end RequestGuard
