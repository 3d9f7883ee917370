import RequestGuard.Proofs.Markup.Stripping
import Mathlib.Tactic.SplitIfs

namespace RequestGuard.Markup

def isMarkup (c : Char) : Bool :=
  c == '<' || c == '>' || c == '"' || c == '\''

def isPlain (c : Char) : Bool :=
  !isMarkup c && c != '&'

-- What stands between the ampersand and the semicolon of an entity.
def isEntity (body : List Char) : Bool :=
  isNamed body || isNumbered body

def isEntityChar (c : Char) : Bool :=
  c.isAlphanum || c == '#'

theorem isAlphanum_of_isHexDigit {c : Char} (h : Text.isHexDigit c = true) :
    c.isAlphanum = true := by
  have hlower : c.isLower = (decide (c.val ≥ 'a'.val) && decide (c.val ≤ 'z'.val)) := rfl
  have hupper : c.isUpper = decide (c.val ≥ 'A'.val ∧ c.val ≤ 'Z'.val) := rfl
  have halphanum : c.isAlphanum = (c.isUpper || c.isLower || c.isDigit) := rfl
  simp only [Text.isHexDigit, Bool.or_eq_true, Bool.and_eq_true, decide_eq_true_eq] at h
  simp only [halphanum, hupper, hlower, Bool.or_eq_true, Bool.and_eq_true, decide_eq_true_eq]
  rcases h with (hdigit | ⟨hlow, hhigh⟩) | ⟨hlow, hhigh⟩
  · exact .inr hdigit
  · exact .inl (.inr ⟨hlow, UInt32.le_trans hhigh (by decide)⟩)
  · exact .inl (.inl ⟨hlow, UInt32.le_trans hhigh (by decide)⟩)

theorem isEntityChar_of_isNamed {body : List Char} (h : isNamed body = true) :
    body.length ≤ 32 ∧ ∀ c ∈ body, isEntityChar c = true := by
  cases body with
  | nil => simp [isNamed] at h
  | cons c rest =>
      simp only [isNamed, Bool.and_eq_true, decide_eq_true_eq, List.all_eq_true] at h
      obtain ⟨⟨⟨hletter, hrest⟩, -⟩, hlength⟩ := h
      refine ⟨Nat.succ_le_succ hlength, List.forall_mem_cons.mpr ⟨?_, fun d hd => ?_⟩⟩
      · simp [isEntityChar, Char.isAlphanum, hletter]
      · simp [isEntityChar, hrest d hd]

theorem isEntityChar_of_isNumbered {body : List Char} (h : isNumbered body = true) :
    body.length ≤ 32 ∧ ∀ c ∈ body, isEntityChar c = true := by
  unfold isNumbered at h
  split at h
  · next digits =>
      rw [Bool.or_eq_true] at h
      rcases h with h | h
      · simp only [Bool.and_eq_true, decide_eq_true_eq, List.all_eq_true] at h
        obtain ⟨⟨hdigits, -⟩, hlength⟩ := h
        refine ⟨by simp only [List.length_cons]; omega, ?_⟩
        refine List.forall_mem_cons.mpr ⟨rfl, fun d hd => ?_⟩
        simp [isEntityChar, Char.isAlphanum, hdigits d hd]
      · split at h
        · next x hex =>
            simp only [Bool.and_eq_true, decide_eq_true_eq, List.all_eq_true] at h
            obtain ⟨⟨⟨hx, hhex⟩, -⟩, hlength⟩ := h
            refine ⟨by simp only [List.length_cons]; omega, ?_⟩
            refine List.forall_mem_cons.mpr ⟨rfl, List.forall_mem_cons.mpr ⟨?_, fun d hd => ?_⟩⟩
            · simp only [Bool.or_eq_true, beq_iff_eq] at hx
              rcases hx with rfl | rfl
              · decide
              · decide
            · simp [isEntityChar, isAlphanum_of_isHexDigit (hhex d hd)]
        · contradiction
  · contradiction

theorem isEntityChar_of_isEntity {body : List Char} (h : isEntity body = true) :
    body.length ≤ 32 ∧ ∀ c ∈ body, isEntityChar c = true := by
  rcases Bool.or_eq_true_iff.mp h with hnamed | hnumbered
  · exact isEntityChar_of_isNamed hnamed
  · exact isEntityChar_of_isNumbered hnumbered

theorem isPlain_of_isEntityChar {c : Char} (h : isEntityChar c = true) :
    isPlain c = true ∧ c ≠ ';' := by
  have hnone : ['<', '>', '"', '\'', '&', ';'].any isEntityChar = false := by decide
  have hne : ∀ d ∈ ['<', '>', '"', '\'', '&', ';'], c ≠ d := by
    intro d hd hc
    subst hc
    exact List.any_eq_false.mp hnone c hd h
  simp only [List.forall_mem_cons] at hne
  simp [isPlain, isMarkup, hne]

theorem isPlain_of_isEntity {body : List Char} (h : isEntity body = true) :
    ∀ c ∈ body, isPlain c = true ∧ c ≠ ';' :=
  fun c hc => isPlain_of_isEntityChar ((isEntityChar_of_isEntity h).2 c hc)

-- Whether an entity starts is decided by what stands before the first semicolon.
theorem startsEntity_iff (text : List Char) :
    startsEntity text = true ↔ ∃ body rest, isEntity body = true ∧ text = body ++ ';' :: rest := by
  simp only [startsEntity, Bool.and_eq_true, decide_eq_true_eq]
  constructor
  · rintro ⟨hlength, hbody⟩
    have hsplit := List.takeWhile_append_dropWhile (p := (· != ';')) (l := text.take 33)
    cases hdrop : (text.take 33).dropWhile (· != ';') with
    | nil =>
        rw [hdrop, List.append_nil] at hsplit
        rw [hsplit] at hlength
        exact absurd hlength (Nat.lt_irrefl _)
    | cons c rest =>
        have hc := List.head?_dropWhile_not (· != ';') (text.take 33)
        rw [hdrop] at hc hsplit
        have hc : c = ';' := by simpa using hc
        subst hc
        refine ⟨_, rest ++ text.drop 33, hbody, ?_⟩
        rw [← List.cons_append, ← List.append_assoc, hsplit, List.take_append_drop]
  · rintro ⟨body, rest, hbody, rfl⟩
    -- no body is so long that its semicolon is cut off
    have hlength := (isEntityChar_of_isEntity hbody).1
    have htake : (body ++ ';' :: rest).take 33 = body ++ ';' :: rest.take (32 - body.length) := by
      have hleft : 33 - body.length = (32 - body.length) + 1 := by omega
      rw [List.take_append, List.take_of_length_le (by omega), hleft, List.take_succ_cons]
    have hwhile : (body ++ ';' :: rest.take (32 - body.length)).takeWhile (· != ';') = body := by
      rw [List.takeWhile_append_of_pos]
      · simp
      · intro c hc
        exact bne_iff_ne.mpr (isPlain_of_isEntity hbody c hc).2
    rw [htake, hwhile]
    exact ⟨by simp, hbody⟩

-- No markup is left, and every ampersand starts an entity.
def Safe : List Char → Prop
  | [] => True
  | c :: rest => isMarkup c = false ∧ (c = '&' → startsEntity rest = true) ∧ Safe rest

theorem Safe.append_plain {body text : List Char} (hbody : ∀ c ∈ body, isPlain c = true)
    (h : Safe text) : Safe (body ++ text) := by
  induction body with
  | nil => exact h
  | cons c rest ih =>
      obtain ⟨hhead, hrest⟩ := List.forall_mem_cons.mp hbody
      simp only [isPlain, Bool.and_eq_true, Bool.not_eq_true', bne_iff_ne] at hhead
      exact ⟨hhead.1, fun hc => absurd hc hhead.2, ih hrest⟩

theorem Safe.entity {body text : List Char} (hbody : isEntity body = true) (h : Safe text) :
    Safe (('&' :: (body ++ [';'])) ++ text) := by
  have hsplit : (body ++ [';']) ++ text = body ++ ';' :: text := by simp
  rw [List.cons_append, hsplit]
  refine ⟨rfl, fun _ => (startsEntity_iff _).mpr ⟨body, text, hbody, rfl⟩, ?_⟩
  refine Safe.append_plain (fun c hc => (isPlain_of_isEntity hbody c hc).1) ?_
  exact ⟨rfl, fun hc => absurd hc (by decide), h⟩

theorem escaped_of_plain {c : Char} (h : isPlain c = true) (rest : List Char) :
    escaped (c :: rest) = c :: escaped rest := by
  simp only [isPlain, isMarkup, Bool.and_eq_true, Bool.not_eq_true', bne_iff_ne,
    Bool.or_eq_false_iff, beq_eq_false_iff_ne] at h
  simp [escaped, h]

theorem escaped_append_of_plain {body : List Char} (h : ∀ c ∈ body, isPlain c = true)
    (rest : List Char) : escaped (body ++ rest) = body ++ escaped rest := by
  induction body with
  | nil => rfl
  | cons c body ih =>
      obtain ⟨hhead, hrest⟩ := List.forall_mem_cons.mp h
      rw [List.cons_append, escaped_of_plain hhead, ih hrest, List.cons_append]

theorem escaped_of_safe {text : List Char} (h : Safe text) : escaped text = text := by
  induction text with
  | nil => rfl
  | cons c rest ih =>
      obtain ⟨hmarkup, hentity, hrest⟩ := h
      by_cases hc : c = '&'
      · simp [escaped, hc, hentity hc, ih hrest]
      · rw [escaped_of_plain (by simp [isPlain, hmarkup, hc]), ih hrest]

-- An entity that is there already is still one when what follows it has been escaped.
theorem startsEntity_escaped {text : List Char} (h : startsEntity text = true) :
    startsEntity (escaped text) = true := by
  obtain ⟨body, rest, hbody, rfl⟩ := (startsEntity_iff text).mp h
  have hplain : ∀ c ∈ body, isPlain c = true := fun c hc => (isPlain_of_isEntity hbody c hc).1
  rw [escaped_append_of_plain hplain, escaped_of_plain (by decide)]
  exact (startsEntity_iff _).mpr ⟨body, escaped rest, hbody, rfl⟩

theorem safe_escaped (text : List Char) : Safe (escaped text) := by
  induction text with
  | nil => trivial
  | cons c rest ih =>
      have hless : lessThan = '&' :: (['l', 't'] ++ [';']) := by decide
      have hgreater : greaterThan = '&' :: (['g', 't'] ++ [';']) := by decide
      have hdouble : doubleQuote = '&' :: (['q', 'u', 'o', 't'] ++ [';']) := by decide
      have hsingle : singleQuote = '&' :: (['#', 'x', '2', '7'] ++ [';']) := by decide
      have hand : ampersand = '&' :: (['a', 'm', 'p'] ++ [';']) := by decide
      simp only [escaped]
      split_ifs with h₁ h₂ h₃ h₄ h₅
      · exact hless ▸ Safe.entity (by decide) ih
      · exact hgreater ▸ Safe.entity (by decide) ih
      · exact hdouble ▸ Safe.entity (by decide) ih
      · exact hsingle ▸ Safe.entity (by decide) ih
      · exact hand ▸ Safe.entity (by decide) ih
      · refine ⟨by simp_all [isMarkup], ?_, ih⟩
        intro hc
        simp only [hc, beq_self_eq_true, Bool.true_and, Bool.not_eq_true', Bool.not_eq_false] at h₅
        exact startsEntity_escaped h₅

theorem escaped_escaped (text : List Char) : escaped (escaped text) = escaped text :=
  escaped_of_safe (safe_escaped text)

theorem not_isMarkup_of_safe {text : List Char} (h : Safe text) :
    ∀ c ∈ text, isMarkup c = false := by
  induction text with
  | nil => exact fun c hc => absurd hc List.not_mem_nil
  | cons c rest ih =>
      obtain ⟨hmarkup, -, hrest⟩ := h
      exact List.forall_mem_cons.mpr ⟨hmarkup, ih hrest⟩

theorem no_angle_of_safe {text : List Char} (h : Safe text) : '<' ∉ text :=
  fun hangle => absurd (not_isMarkup_of_safe h _ hangle) (by decide)

end RequestGuard.Markup

namespace RequestGuard

open Markup

-- An escaped text has no angles left, so there is nothing to strip in it.
theorem cleaned_cleaned (escape : Bool) (s : String) :
    cleaned escape (cleaned escape s) = cleaned escape s := by
  cases escape with
  | false => simp [cleaned, stripTags, stripped_stripped]
  | true =>
      have hangle := no_angle_of_safe (safe_escaped (stripped s.toList))
      simp [cleaned, stripTags, escapeMarkup, stripped_of_no_angle hangle, escaped_escaped]

end RequestGuard
