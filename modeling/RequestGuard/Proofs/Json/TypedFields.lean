import RequestGuard.Json.Schema
import RequestGuard.Proofs.Json.RoundTrip

namespace RequestGuard.Json

open Utf8 (encode)

-- What is written of a value is read for one, up to where it ends.
def ReadsAs (read : Reader Json) (written value : Json) : Prop :=
  ∀ rest, EndsNumber rest → read (encode written.write ++ rest) = .ok (value, rest)

-- A value that a reader can come to.
def Hands (read : Reader Json) (value : Json) : Prop :=
  ∃ input rest, read input = .ok (value, rest)

-- The members of an object of texts.
def Texts (members : List (String × Json)) : Prop :=
  ∀ member ∈ members, ∃ s, member.2 = text s

variable {value shown : Json} {members : List (String × Json)} {read inner : Reader Json}

-- What is written alone is read to its end.
theorem complete_written (h : ReadsAs read shown value) :
    complete read (bytesOf shown.written) = .ok value := by
  have hend : EndsNumber [] := fun b hb => absurd hb (by simp)
  have hread := h [] hend
  rw [List.append_nil] at hread
  rw [written, Utf8.bytesOf_ofList, complete, hread]
  rfl

-- Texts

theorem readsAs_text (s : String) : ReadsAs readTextField (text s) (text s) := by
  intro rest _
  rw [encode_text, readTextField, skip_cons (by decide)]
  simp [readText_writeText, Except.map]

theorem exists_of_hands_text (h : Hands readTextField value) : ∃ s, value = text s := by
  obtain ⟨input, rest, hread⟩ := h
  unfold readTextField at hread
  split at hread
  · obtain ⟨⟨s, after⟩, -, heq⟩ := map_eq_ok hread
    cases heq
    exact ⟨s, rfl⟩
  · contradiction

-- Flags

theorem readsAs_flag (b : Bool) : ReadsAs readFlagField (bool b) (bool b) := by
  intro rest _
  cases b with
  | true =>
      have hword : encode ['t', 'r', 'u', 'e'] = 0x74 :: rrue := by decide
      simp [write, hword, readFlagField, skip, isSpace, constant, readWord, rrue, Except.map]
  | false =>
      have hword : encode ['f', 'a', 'l', 's', 'e'] = 0x66 :: ralse := by decide
      simp [write, hword, readFlagField, skip, isSpace, constant, readWord, ralse, Except.map]

theorem exists_of_hands_flag (h : Hands readFlagField value) : ∃ b, value = bool b := by
  obtain ⟨input, rest, hread⟩ := h
  unfold readFlagField constant at hread
  split at hread
  · obtain ⟨after, -, heq⟩ := map_eq_ok hread
    cases heq
    exact ⟨true, rfl⟩
  · obtain ⟨after, -, heq⟩ := map_eq_ok hread
    cases heq
    exact ⟨false, rfl⟩
  · contradiction

-- Words

theorem readsAs_word {n : Nat} (h : n ≤ Numeral.maxWord) : ReadsAs readWordField (nat n) (nat n) := by
  intro rest hrest
  have hread := readNumber_digits false h hrest
  have hwhole : wholeNumber false n = .integer n := rfl
  obtain ⟨d, more, hcons, hd⟩ := encode_digits_cons n
  rw [nat, write, encode_natural (Int.natCast_nonneg n), Int.natAbs_natCast]
  rw [hwhole, hcons, List.cons_append] at hread
  rw [hcons, List.cons_append, readWordField, skip_cons (isSpace_of_isDigit hd)]
  have hnatural : ¬(n : Int) < 0 := by omega
  simp [ne_of_isDigit hd (b := 0x2D) (by decide), hd, hread, wordOf, hnatural]

theorem ofParts_real {negative : Bool} {significand : Nat} {exponent : Int} {n : Number}
    {input rest : Bytes} (h : ofParts negative significand exponent input = .ok (n, rest)) :
    ∃ x, n = .real x := by
  unfold ofParts at h
  split at h
  · cases h
    exact ⟨_, rfl⟩
  · contradiction

theorem readExponent_real {negative : Bool} {significand : Nat} {start : Int} {n : Number}
    {input rest : Bytes} (h : readExponent negative significand start input = .ok (n, rest)) :
    ∃ x, n = .real x := by
  unfold readExponent at h
  dsimp only at h
  repeat' split at h
  all_goals first
    | contradiction
    | exact ofParts_real h
    | (cases h; exact ⟨_, rfl⟩)

theorem readFraction_real {negative : Bool} {significand : Nat} {start : Int} {n : Number}
    {input rest : Bytes} (h : readFraction negative significand start input = .ok (n, rest)) :
    ∃ x, n = .real x := by
  unfold readFraction at h
  dsimp only at h
  repeat' split at h
  all_goals first
    | contradiction
    | exact readExponent_real h
    | exact ofParts_real h

-- Digits are absorbed while the number fits a word.
theorem absorb_le {significand : Nat} (h : significand ≤ Numeral.maxWord) (digits : Bytes) :
    (absorb significand digits).1 ≤ Numeral.maxWord := by
  induction digits generalizing significand with
  | nil => exact h
  | cons d digits ih =>
      simp only [absorb]
      split
      · next hfits => exact ih hfits
      · exact h

theorem readNumberTail_integer {negative : Bool} {digits input rest : Bytes} {i : Int}
    (h : readNumberTail negative digits input = .ok (.integer i, rest)) :
    ∃ s ≤ Numeral.maxWord, .integer i = wholeNumber negative s := by
  have hle := absorb_le (Nat.zero_le _) digits
  have hreal : ¬∃ x, Number.integer i = .real x := by
    rintro ⟨x, hx⟩
    cases hx
  unfold readNumberTail at h
  dsimp only at h
  repeat' split at h
  all_goals first
    | exact absurd (readFraction_real h) hreal
    | exact absurd (readExponent_real h) hreal
    | exact absurd (ofParts_real h) hreal
    | (simp only [Except.ok.injEq, Prod.mk.injEq] at h; exact ⟨_, hle, h.1.symm⟩)

theorem readNumber_integer {negative : Bool} {input rest : Bytes} {i : Int}
    (h : readNumber negative input = .ok (.integer i, rest)) :
    ∃ s ≤ Numeral.maxWord, .integer i = wholeNumber negative s := by
  unfold readNumber at h
  repeat' split at h
  all_goals first
    | contradiction
    | exact readNumberTail_integer h

-- No word is negative, and a negative zero is no whole number.
theorem exists_of_wordOf {negative : Bool} {input rest : Bytes} {n : Number}
    (hread : readNumber negative input = .ok (n, rest)) (h : wordOf n = .ok value) :
    ∃ m ≤ Numeral.maxWord, value = nat m := by
  cases n with
  | real x => cases h
  | integer i =>
      unfold wordOf at h
      dsimp only at h
      split at h
      · contradiction
      · next hnatural =>
          cases h
          obtain ⟨s, hs, hwhole⟩ := readNumber_integer hread
          unfold wholeNumber at hwhole
          split_ifs at hwhole with hpositive hnonzero
          · cases hwhole
            exact ⟨s, hs, rfl⟩
          · simp only [Bool.and_eq_true, bne_iff_ne] at hnonzero
            cases hwhole
            omega

theorem exists_of_hands_word (h : Hands readWordField value) :
    ∃ n ≤ Numeral.maxWord, value = nat n := by
  obtain ⟨input, rest, hread⟩ := h
  unfold readWordField at hread
  dsimp only at hread
  repeat' split at hread
  all_goals first
    | contradiction
    | (cases hread; exact exists_of_wordOf ‹readNumber _ _ = .ok _› ‹wordOf _ = .ok _›)

-- What may be missing

theorem readsAs_null : ReadsAs (readOptional inner) null null := by
  intro rest _
  have hword : encode ['n', 'u', 'l', 'l'] = 0x6E :: rull := by decide
  simp [write, hword, readOptional, skip, isSpace, constant, readWord, rull, Except.map]

-- A reader that does not take a value for null.
def RefusesNull (read : Reader Json) : Prop :=
  ∀ input rest found, skip input = 0x6E :: rest → read input ≠ .ok found

theorem refusesNull_text : RefusesNull readTextField := by
  intro input rest found hskip
  simp [readTextField, hskip]

theorem refusesNull_word : RefusesNull readWordField := by
  intro input rest found hskip
  simp [readWordField, hskip, isDigit]

theorem refusesNull_flag : RefusesNull readFlagField := by
  intro input rest found hskip
  simp [readFlagField, hskip]

theorem readsAs_optional (hrefuses : RefusesNull inner) (h : ReadsAs inner shown value) :
    ReadsAs (readOptional inner) shown value := by
  intro rest hrest
  have hread := h rest hrest
  unfold readOptional
  split
  · next after hskip => exact absurd hread (hrefuses _ _ _ hskip)
  · exact hread

theorem readsAs_ofOption {f : α → Json} {o : Option α} (hrefuses : RefusesNull inner)
    (h : ∀ a ∈ o, ReadsAs inner (f a) (f a)) :
    ReadsAs (readOptional inner) (ofOption f o) (ofOption f o) := by
  cases o with
  | none => exact readsAs_null
  | some a => exact readsAs_optional hrefuses (h a rfl)

theorem hands_of_optional (h : Hands (readOptional inner) value) :
    value = null ∨ Hands inner value := by
  obtain ⟨input, rest, hread⟩ := h
  unfold readOptional constant at hread
  split at hread
  · obtain ⟨after, -, heq⟩ := map_eq_ok hread
    cases heq
    exact .inl rfl
  · exact .inr ⟨input, rest, hread⟩

-- Maps of texts

theorem readsAs_texts (hkeys : Ascending members) (htexts : Texts members) :
    ReadsAs readTextsField (object members) (object members) := by
  intro rest _
  have hgathered : members.foldl (fun gathered pair => member pair.1 pair.2 gathered) [] =
      members := gathered_of_ascending (show Ascending ([] ++ members) from hkeys)
  have hread := readMembers_values member (fun pair hpair behind hbehind => by
    obtain ⟨s, hs⟩ := htexts pair hpair
    rw [hs]
    exact readsAs_text s behind hbehind) rest
  rw [hgathered] at hread
  rw [encode_object, readTextsField, skip_cons (by decide)]
  exact congrArg (Except.map fun found => (object found.1, found.2)) hread

theorem exists_of_hands_texts (h : Hands readTextsField value) :
    ∃ members, value = object members ∧ Ascending members ∧ Texts members := by
  obtain ⟨input, rest, hread⟩ := h
  unfold readTextsField at hread
  split at hread
  · obtain ⟨⟨members, after⟩, hmembers, heq⟩ := map_eq_ok hread
    cases heq
    obtain ⟨hkeys, htexts⟩ := readMembers_preserves
      (P := fun members => Ascending members ∧ Texts members)
      (fun {gathered _ more _} hgathered hentry => by
        obtain ⟨key, v, after, hvalue, rfl⟩ := readMember_eq_ok hentry
        refine ⟨ascending_member hgathered.1, fun pair hpair => ?_⟩
        rcases mem_member hpair with rfl | hpair
        · exact exists_of_hands_text ⟨_, _, hvalue⟩
        · exact hgathered.2 pair hpair)
      ⟨List.Pairwise.nil, List.forall_mem_nil _⟩ hmembers
    exact ⟨members, rfl, hkeys, htexts⟩
  · contradiction

end RequestGuard.Json
