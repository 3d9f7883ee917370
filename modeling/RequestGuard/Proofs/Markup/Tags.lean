import RequestGuard.Proofs.Markup.Stripping
import Mathlib.Data.List.Infix
import Mathlib.Data.List.TakeWhile

namespace RequestGuard.Markup

def Blanks (text : List Char) : Prop :=
  ∀ c ∈ text, Text.isBlank c = true

-- What is taken for a tag: an angle, a letter or an exclamation mark behind blanks and perhaps a
-- slash, and no further angle up to the closing one.
inductive Tag : List Char → Prop where
  | written {before slash after inside : List Char} {mark : Char} : Blanks before →
      slash = [] ∨ slash = ['/'] → Blanks after → mark.isAlpha = true ∨ mark = '!' →
      (∀ c ∈ inside, c ≠ '<' ∧ c ≠ '>') →
      Tag ('<' :: (before ++ (slash ++ (after ++ mark :: (inside ++ ['>'])))))

-- The name of a block of code, in any case of its letters.
def Named (name : List Char) : Prop :=
  name.map Text.fold = script ∨ name.map Text.fold = style

inductive Closing : List Char → Prop where
  | written {before after name last : List Char} : Blanks before → Blanks after → Named name →
      Blanks last → Closing ('<' :: (before ++ '/' :: (after ++ (name ++ (last ++ ['>'])))))

-- A block of code from its opening tag, whose name ends where a word ends, to a closing tag.
inductive Block : List Char → Prop where
  | written {before name inside content closing : List Char} : Blanks before → Named name →
      startsInWord (inside ++ ['>']) = false → (∀ c ∈ inside, c ≠ '>') → Closing closing →
      Block ('<' :: (before ++ (name ++ (inside ++ '>' :: (content ++ closing)))))

-- A text in which there is neither.
def Unmarked (text : List Char) : Prop :=
  (∀ tag, Tag tag → ¬tag <:+: text) ∧ ∀ block, Block block → ¬block <:+: text

variable {text rest after name : List Char} {c : Char}

-- Blanks and names

theorem past_eq_some_iff : past c text = some rest ↔ text = c :: rest := by
  cases text with
  | nil => simp [past]
  | cons d more => simp [past]

theorem past_self (c : Char) (rest : List Char) : past c (c :: rest) = some rest :=
  past_eq_some_iff.mpr rfl

theorem blanksOff_append {before : List Char} (h : Blanks before) (rest : List Char) :
    blanksOff (before ++ rest) = blanksOff rest :=
  List.dropWhile_append_of_pos h

theorem blanksOff_cons (h : Text.isBlank c = false) (rest : List Char) :
    blanksOff (c :: rest) = c :: rest := by
  simp [blanksOff, h]

theorem exists_blanks (text : List Char) :
    ∃ before, Blanks before ∧ text = before ++ blanksOff text :=
  ⟨text.takeWhile Text.isBlank, fun _ hc => List.mem_takeWhile_imp hc,
    List.takeWhile_append_dropWhile.symm⟩

theorem not_isBlank_of_mark (h : c.isAlpha = true ∨ c = '!') :
    Text.isBlank c = false ∧ c ≠ '/' := by
  rcases h with hletter | rfl
  · have hrange : (97 ≤ c.toNat ∧ c.toNat ≤ 122) ∨ (65 ≤ c.toNat ∧ c.toNat ≤ 90) := by
      rcases Bool.or_eq_true_iff.mp hletter with hupper | hlower
      · obtain ⟨hlow, hhigh⟩ := of_decide_eq_true hupper
        exact .inr ⟨UInt32.le_iff_toNat_le.mp hlow, UInt32.le_iff_toNat_le.mp hhigh⟩
      · obtain ⟨hlow, hhigh⟩ := Bool.and_eq_true_iff.mp hlower
        exact .inl ⟨UInt32.le_iff_toNat_le.mp (of_decide_eq_true hlow),
          UInt32.le_iff_toNat_le.mp (of_decide_eq_true hhigh)⟩
    constructor
    · simp [Text.isBlank]
      omega
    · rintro rfl
      revert hrange
      decide
  · decide

-- A name begins with an s, so it is not taken for a blank.
theorem fold_ne_of_isBlank (h : Text.isBlank c = true) : Text.fold c ≠ 's' := by
  have hsmall : c ≠ 's' := by
    rintro rfl
    exact absurd h (by decide)
  have hlong : c ≠ '\u017F' := by
    rintro rfl
    exact absurd h (by decide)
  have hupper : ¬(c.val ≥ 'A'.val ∧ c.val ≤ 'Z'.val) := by
    rintro ⟨hlow, hhigh⟩
    have hlow : 65 ≤ c.toNat := UInt32.le_iff_toNat_le.mp hlow
    have hhigh : c.toNat ≤ 90 := UInt32.le_iff_toNat_le.mp hhigh
    simp [Text.isBlank] at h
    omega
  have hlower : c.toLower = c := dif_neg hupper
  rw [Text.fold, if_neg (by simpa using hlong), hlower]
  split
  · decide
  · exact hsmall

theorem Named.exists_cons (h : Named name) :
    ∃ c more, name = c :: more ∧ Text.isBlank c = false := by
  have hhead : (name.map Text.fold).head? = some 's' := by
    rcases h with h | h <;> rw [h] <;> rfl
  cases name with
  | nil => cases hhead
  | cons c more =>
      have hfold : Text.fold c = 's' := Option.some.inj hhead
      exact ⟨c, more, rfl, Bool.eq_false_iff.mpr fun hblank => fold_ne_of_isBlank hblank hfold⟩

theorem blanksOff_name (h : Named name) (rest : List Char) :
    blanksOff (name ++ rest) = name ++ rest := by
  obtain ⟨c, more, rfl, hc⟩ := h.exists_cons
  exact blanksOff_cons hc _

theorem pastName_eq_some_iff {word : List Char} : pastName word text = some rest ↔
    ∃ name, name.map Text.fold = word ∧ text = name ++ rest := by
  induction word generalizing text with
  | nil => simp [pastName]
  | cons w word ih =>
      cases text with
      | nil => simp [pastName, eq_comm]
      | cons c more =>
          rw [pastName]
          constructor
          · intro h
            split at h
            · next hw =>
                obtain ⟨name, rfl, rfl⟩ := ih.mp h
                exact ⟨c :: name, by simpa using hw, rfl⟩
            · contradiction
          · rintro ⟨name, hname, htext⟩
            cases name with
            | nil => contradiction
            | cons d name =>
                obtain ⟨rfl, rfl⟩ := List.cons.inj htext
                obtain ⟨rfl, rfl⟩ := List.cons.inj hname
                rw [if_pos (beq_self_eq_true _)]
                exact ih.mpr ⟨name, rfl, rfl⟩

-- The second letters of the two names differ.
theorem pastName_script_of_style (h : name.map Text.fold = style) (rest : List Char) :
    pastName script (name ++ rest) = none := by
  rw [Option.eq_none_iff_forall_ne_some]
  intro other hother
  obtain ⟨other, hscript, heq⟩ := pastName_eq_some_iff.mp hother
  have hsecond := congrArg (fun text => (text.map Text.fold)[1]?) heq
  simp [List.map_append, h, hscript, script, style] at hsecond

theorem pastEither_eq_some_iff :
    pastEither text = some rest ↔ ∃ name, Named name ∧ text = name ++ rest := by
  rw [pastEither, Option.or_eq_some_iff, pastName_eq_some_iff, pastName_eq_some_iff]
  constructor
  · rintro (⟨name, hname, htext⟩ | ⟨-, name, hname, htext⟩)
    · exact ⟨name, .inl hname, htext⟩
    · exact ⟨name, .inr hname, htext⟩
  · rintro ⟨name, hname | hname, rfl⟩
    · exact .inl ⟨name, hname, rfl⟩
    · exact .inr ⟨pastName_script_of_style hname rest, name, hname, rfl⟩

theorem pastEither_name (h : Named name) (rest : List Char) :
    pastEither (name ++ rest) = some rest :=
  pastEither_eq_some_iff.mpr ⟨name, h, rfl⟩

-- What the finders pass

theorem pastInside_eq_some_iff : pastInside text = some after ↔
    ∃ inside, (∀ c ∈ inside, c ≠ '<' ∧ c ≠ '>') ∧ text = inside ++ '>' :: after := by
  induction text with
  | nil => simp [pastInside]
  | cons c rest ih =>
      rw [pastInside]
      constructor
      · intro h
        split at h
        · next hclose =>
            cases h
            exact ⟨[], by simp, by simpa using hclose⟩
        · next hclose =>
            split at h
            · contradiction
            · next hopen =>
                obtain ⟨inside, hinside, rfl⟩ := ih.mp h
                have hc : c ≠ '<' ∧ c ≠ '>' := ⟨by simpa using hopen, by simpa using hclose⟩
                exact ⟨c :: inside, List.forall_mem_cons.mpr ⟨hc, hinside⟩, rfl⟩
      · rintro ⟨inside, hinside, htext⟩
        cases inside with
        | nil =>
            obtain ⟨rfl, rfl⟩ := List.cons.inj htext
            rfl
        | cons d inside =>
            obtain ⟨rfl, rfl⟩ := List.cons.inj htext
            obtain ⟨⟨hopen, hclose⟩, hinside⟩ := List.forall_mem_cons.mp hinside
            rw [if_neg (by simpa using hclose), if_neg (by simpa using hopen)]
            exact ih.mpr ⟨inside, hinside, rfl⟩

theorem pastAngle_eq_some_iff : pastAngle text = some after ↔
    ∃ inside, (∀ c ∈ inside, c ≠ '>') ∧ text = inside ++ '>' :: after := by
  induction text with
  | nil => simp [pastAngle]
  | cons c rest ih =>
      rw [pastAngle]
      constructor
      · intro h
        split at h
        · next hclose =>
            cases h
            exact ⟨[], by simp, by simpa using hclose⟩
        · next hclose =>
            obtain ⟨inside, hinside, rfl⟩ := ih.mp h
            exact ⟨c :: inside, List.forall_mem_cons.mpr ⟨by simpa using hclose, hinside⟩, rfl⟩
      · rintro ⟨inside, hinside, htext⟩
        cases inside with
        | nil =>
            obtain ⟨rfl, rfl⟩ := List.cons.inj htext
            rfl
        | cons d inside =>
            obtain ⟨rfl, rfl⟩ := List.cons.inj htext
            obtain ⟨hclose, hinside⟩ := List.forall_mem_cons.mp hinside
            rw [if_neg (by simpa using hclose)]
            exact ih.mpr ⟨inside, hinside, rfl⟩

theorem exists_slash (text : List Char) :
    ∃ slash, (slash = [] ∨ slash = ['/']) ∧ text = slash ++ (past '/' text).getD text := by
  cases hslash : past '/' text with
  | none => exact ⟨[], .inl rfl, rfl⟩
  | some rest => exact ⟨['/'], .inr rfl, past_eq_some_iff.mp hslash⟩

theorem blanksOff_slash {before slash between : List Char} {mark : Char} (hbefore : Blanks before)
    (hslash : slash = [] ∨ slash = ['/']) (hbetween : Blanks between)
    (hmark : mark.isAlpha = true ∨ mark = '!') (rest : List Char) :
    let behind := blanksOff (before ++ (slash ++ (between ++ mark :: rest)))
    blanksOff ((past '/' behind).getD behind) = mark :: rest := by
  obtain ⟨hblank, hne⟩ := not_isBlank_of_mark hmark
  rw [blanksOff_append hbefore]
  rcases hslash with rfl | rfl
  · rw [List.nil_append, blanksOff_append hbetween, blanksOff_cons hblank]
    dsimp only
    rw [past_of_ne hne, Option.getD_none, blanksOff_cons hblank]
  · rw [List.singleton_append, blanksOff_cons (by decide)]
    dsimp only
    rw [past_self, Option.getD_some, blanksOff_append hbetween, blanksOff_cons hblank]

theorem pastTag_eq_some_iff :
    pastTag text = some after ↔ ∃ tag, Tag tag ∧ text = tag ++ after := by
  constructor
  · intro h
    simp only [pastTag, bind, Option.bind_eq_some_iff] at h
    obtain ⟨behind, hopen, h⟩ := h
    obtain rfl := past_eq_some_iff.mp hopen
    obtain ⟨before, hbefore, hbehind⟩ := exists_blanks behind
    obtain ⟨slash, hslash, hrest⟩ := exists_slash (blanksOff behind)
    obtain ⟨between, hbetween, hmark⟩ :=
      exists_blanks ((past '/' (blanksOff behind)).getD (blanksOff behind))
    split at h
    · contradiction
    · next mark inside hcons =>
        split at h
        · next hmarks =>
            obtain ⟨inside, hinside, rfl⟩ := pastInside_eq_some_iff.mp h
            have hmarks : mark.isAlpha = true ∨ mark = '!' := by simpa using hmarks
            refine ⟨_, .written hbefore hslash hbetween hmarks hinside, ?_⟩
            rw [hbehind, hrest, hmark, hcons]
            simp
        · contradiction
  · rintro ⟨tag, htag, rfl⟩
    cases htag with
    | @written before slash between inside mark hbefore hslash hbetween hmark hinside =>
        have hmarks : (mark.isAlpha || mark == '!') = true := by simpa using hmark
        have hend : pastInside (inside ++ '>' :: after) = some after :=
          pastInside_eq_some_iff.mpr ⟨inside, hinside, rfl⟩
        have hrest := blanksOff_slash hbefore hslash hbetween hmark (inside ++ '>' :: after)
        simp only [List.cons_append, List.append_assoc, List.nil_append, pastTag, bind, past_self,
          Option.bind_some, hrest, hmarks, if_true, hend]

theorem pastOpening_eq_some_iff : pastOpening text = some rest ↔
    ∃ before name inside, Blanks before ∧ Named name ∧
      startsInWord (inside ++ ['>']) = false ∧ (∀ c ∈ inside, c ≠ '>') ∧
      text = '<' :: (before ++ (name ++ (inside ++ '>' :: rest))) := by
  have hword (inside : List Char) :
      startsInWord (inside ++ '>' :: rest) = startsInWord (inside ++ ['>']) := by
    cases inside <;> rfl
  constructor
  · intro h
    simp only [pastOpening, bind, Option.bind_eq_some_iff] at h
    obtain ⟨behind, hopen, named, hname, h⟩ := h
    obtain rfl := past_eq_some_iff.mp hopen
    obtain ⟨before, hbefore, hbehind⟩ := exists_blanks behind
    obtain ⟨name, hnamed, hname⟩ := pastEither_eq_some_iff.mp hname
    split at h
    · contradiction
    · next hboundary =>
        obtain ⟨inside, hinside, rfl⟩ := pastAngle_eq_some_iff.mp h
        rw [Bool.not_eq_true, hword] at hboundary
        exact ⟨before, name, inside, hbefore, hnamed, hboundary, hinside, by rw [hbehind, hname]⟩
  · rintro ⟨before, name, inside, hbefore, hnamed, hboundary, hinside, rfl⟩
    have hangle : pastAngle (inside ++ '>' :: rest) = some rest :=
      pastAngle_eq_some_iff.mpr ⟨inside, hinside, rfl⟩
    simp only [pastOpening, bind, past_self, Option.bind_some, blanksOff_append hbefore,
      blanksOff_name hnamed, pastEither_name hnamed, hword, hboundary, Bool.false_eq_true,
      if_false, hangle]

theorem pastClosing_eq_some_iff :
    pastClosing text = some after ↔ ∃ closing, Closing closing ∧ text = closing ++ after := by
  constructor
  · intro h
    simp only [pastClosing, bind, Option.bind_eq_some_iff] at h
    obtain ⟨behind, hopen, slashed, hslash, named, hname, hclose⟩ := h
    obtain rfl := past_eq_some_iff.mp hopen
    obtain ⟨before, hbefore, hbehind⟩ := exists_blanks behind
    obtain ⟨between, hbetween, hslashed⟩ := exists_blanks slashed
    obtain ⟨name, hnamed, hname⟩ := pastEither_eq_some_iff.mp hname
    obtain ⟨last, hlast, hlasting⟩ := exists_blanks named
    refine ⟨_, .written hbefore hbetween hnamed hlast, ?_⟩
    rw [hbehind, past_eq_some_iff.mp hslash, hslashed, hname, hlasting,
      past_eq_some_iff.mp hclose]
    simp
  · rintro ⟨closing, hclosing, rfl⟩
    cases hclosing with
    | @written before between name last hbefore hbetween hnamed hlast =>
        have hslash : Text.isBlank '/' = false := by decide
        have hclose : Text.isBlank '>' = false := by decide
        simp only [List.cons_append, List.append_assoc, List.nil_append, pastClosing, bind,
          past_self, Option.bind_some, blanksOff_append hbefore, blanksOff_cons hslash,
          blanksOff_append hbetween, blanksOff_name hnamed, pastEither_name hnamed,
          blanksOff_append hlast, blanksOff_cons hclose]

theorem exists_closing (h : pastContent text = some after) :
    ∃ content closing, Closing closing ∧ text = content ++ (closing ++ after) := by
  induction text with
  | nil => contradiction
  | cons c rest ih =>
      rw [pastContent, Option.or_eq_some_iff] at h
      rcases h with hclosing | ⟨-, hrest⟩
      · obtain ⟨closing, hclosing, htext⟩ := pastClosing_eq_some_iff.mp hclosing
        exact ⟨[], closing, hclosing, htext⟩
      · obtain ⟨content, closing, hclosing, rfl⟩ := ih hrest
        exact ⟨c :: content, closing, hclosing, rfl⟩

-- The content ends at the first closing tag, so one further on is not needed.
theorem pastContent_isSome {closing : List Char} (h : Closing closing) (content rest : List Char) :
    (pastContent (content ++ (closing ++ rest))).isSome = true := by
  induction content with
  | nil =>
      have hclosing : pastClosing (closing ++ rest) = some rest :=
        pastClosing_eq_some_iff.mpr ⟨closing, h, rfl⟩
      cases hcons : closing ++ rest with
      | nil => rw [hcons] at hclosing; contradiction
      | cons c more =>
          rw [hcons] at hclosing
          simp [pastContent, hclosing]
  | cons c content ih =>
      rw [List.cons_append, pastContent, Option.isSome_or, ih, Bool.or_true]

theorem exists_block (h : pastBlock text = some after) :
    ∃ block, Block block ∧ text = block ++ after := by
  obtain ⟨rest, hopening, hcontent⟩ := Option.bind_eq_some_iff.mp h
  obtain ⟨before, name, inside, hbefore, hnamed, hboundary, hinside, rfl⟩ :=
    pastOpening_eq_some_iff.mp hopening
  obtain ⟨content, closing, hclosing, rfl⟩ := exists_closing hcontent
  have hblock : Block ('<' :: (before ++ (name ++ (inside ++ '>' :: (content ++ closing))))) :=
    .written hbefore hnamed hboundary hinside hclosing
  exact ⟨_, hblock, by simp⟩

theorem pastBlock_isSome {block : List Char} (h : Block block) (rest : List Char) :
    (pastBlock (block ++ rest)).isSome = true := by
  cases h with
  | @written before name inside content closing hbefore hnamed hboundary hinside hclosing =>
      have hopening : pastOpening ('<' :: (before ++ (name ++ (inside ++
          '>' :: (content ++ (closing ++ rest)))))) = some (content ++ (closing ++ rest)) :=
        pastOpening_eq_some_iff.mpr
          ⟨before, name, inside, hbefore, hnamed, hboundary, hinside, rfl⟩
      simp only [List.cons_append, List.append_assoc]
      rw [pastBlock, hopening, Option.bind_some]
      exact pastContent_isSome hclosing content rest

end RequestGuard.Markup
