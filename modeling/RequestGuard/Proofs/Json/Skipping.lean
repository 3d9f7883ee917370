import RequestGuard.Json.Skip
import RequestGuard.Proofs.Json.RoundTrip

namespace RequestGuard.Json

open Utf8 (encode)

-- What is written of a value is passed over, up to where it ends.
def PassedOver (value : Json) : Prop :=
  ∀ rest, EndsNumber rest → skipValue (encode value.write ++ rest) = .ok rest

variable {input rest after content : Bytes}

-- A text that can be read can be passed over.

theorem skipText_plain {b : UInt8} (hquote : ¬(b == 0x22) = true) (hbackslash : ¬(b == 0x5C) = true)
    (hcontrol : ¬b < 0x20) : skipText (b :: rest) = skipText rest := by
  rw [skipText, if_neg hquote, if_neg hbackslash, if_neg hcontrol]

theorem skipText_escape (h : skipEscape rest = .ok after) :
    skipText (0x5C :: rest) = skipText after := by
  rw [skipText, if_neg (by decide), if_pos (by decide)]
  split
  · next fault hfault => exact absurd (hfault.symm.trans h) (by simp)
  · next found hfound =>
      cases hfound.symm.trans h
      rfl

theorem skipEscape_hex {n : Nat} (h : readHex input = .ok (n, rest)) :
    skipEscape (0x75 :: input) = .ok rest := by
  simp [skipEscape, h, Except.map]

theorem skipEscape_mark {c : UInt8}
    (h : [0x22, 0x5C, 0x2F, 0x62, 0x66, 0x6E, 0x72, 0x74].contains c = true) :
    skipEscape (c :: rest) = .ok rest := by
  have hne : (c == 0x75) = false := by
    rw [beq_eq_false_iff_ne]
    rintro rfl
    exact absurd h (by decide)
  simp only [skipEscape, hne, h, Bool.false_eq_true, if_false, if_true]

-- The second half of a character beyond the basic plane is an escape of its own.
theorem readCodePoint_eq_ok (h : readCodePoint input = .ok (content, after)) :
    ∃ n rest, readHex input = .ok (n, rest) ∧ (rest = after ∨
      ∃ behind m, rest = 0x5C :: 0x75 :: behind ∧ readHex behind = .ok (m, after)) := by
  unfold readCodePoint at h
  repeat' split at h
  all_goals try contradiction
  · next n rest hread _ _ =>
      cases h
      exact ⟨n, _, hread, .inl rfl⟩
  · next n _ _ _ b u behind hread hbackslash hmark _ m last hlast _ =>
      have hb : b = 0x5C := not_not.mp (mt bne_iff_ne.mpr hbackslash)
      have hu : u = 0x75 := not_not.mp (mt bne_iff_ne.mpr hmark)
      obtain ⟨-, rfl⟩ := Prod.mk.inj (Except.ok.inj h)
      exact ⟨n, _, hread, .inr ⟨behind, m, by rw [hb, hu], hlast⟩⟩

theorem skipText_codePoint (h : readCodePoint input = .ok (content, after)) :
    skipText (0x5C :: 0x75 :: input) = skipText after := by
  obtain ⟨n, rest, hread, rfl | ⟨behind, m, rfl, hlast⟩⟩ := readCodePoint_eq_ok h
  · exact skipText_escape (skipEscape_hex hread)
  · exact (skipText_escape (skipEscape_hex hread)).trans (skipText_escape (skipEscape_hex hlast))

-- An escape is a mark that stands for one byte, or a code point.
theorem readEscape_eq_ok (h : readEscape input = .ok (content, after)) :
    (∃ c, [0x22, 0x5C, 0x2F, 0x62, 0x66, 0x6E, 0x72, 0x74].contains c = true ∧
      input = c :: after) ∨
    ∃ rest, input = 0x75 :: rest ∧ readCodePoint rest = .ok (content, after) := by
  unfold readEscape at h
  split at h
  · contradiction
  · next c rest =>
      split at h
      · next hc =>
          have hmark : c = 0x22 ∨ c = 0x5C ∨ c = 0x2F := by simpa [or_assoc] using hc
          cases h
          exact .inl ⟨c, by rcases hmark with rfl | rfl | rfl <;> decide, rfl⟩
      · repeat' split at h
        all_goals first
          | contradiction
          | exact .inr ⟨rest, by rw [beq_iff_eq.mp ‹(c == 0x75) = true›], h⟩
          | (obtain ⟨-, rfl⟩ := Prod.mk.inj (Except.ok.inj h)
             exact .inl ⟨c, by simp_all, rfl⟩)

theorem skipText_readEscape (h : readEscape input = .ok (content, after)) :
    skipText (0x5C :: input) = skipText after := by
  rcases readEscape_eq_ok h with ⟨c, hmark, rfl⟩ | ⟨rest, rfl, hread⟩
  · exact skipText_escape (skipEscape_mark hmark)
  · exact skipText_codePoint hread

theorem skipText_of_readContent (h : readContent input = .ok (content, rest)) :
    skipText input = .ok rest := by
  fun_induction readContent input generalizing content with
  | case2 b tail hquote =>
      cases h
      rw [skipText, if_pos hquote]
  | case5 b tail hquote hbackslash found behind hread hshort more last hmore ih =>
      cases h
      rw [beq_iff_eq.mp hbackslash, skipText_readEscape hread]
      exact ih hmore
  | case8 b tail hquote hbackslash hcontrol more last hmore ih =>
      cases h
      rw [skipText_plain hquote hbackslash hcontrol]
      exact ih hmore
  | _ => contradiction

theorem skipText_written (s : String) (rest : Bytes) :
    skipText (encode (s.toList.flatMap escape) ++ 0x22 :: rest) = .ok rest :=
  skipText_of_readContent (readContent_writeText s.toList rest)

-- Numbers

theorem skipNumberTail_ends (h : EndsNumber rest) : skipNumberTail rest = .ok rest := by
  cases rest with
  | nil => rfl
  | cons b after =>
      obtain ⟨-, hpoint, hmark⟩ := h b rfl
      simp [skipNumberTail, hpoint, hmark]

theorem skipNumber_digits (n : Nat) (h : EndsNumber rest) :
    skipNumber (encode (Numeral.digits n) ++ rest) = .ok rest := by
  have hdigits := Numeral.digits_isDigit n
  have htail := skipNumberTail_ends h
  rw [encode_digits hdigits]
  by_cases hzero : n = 0
  · subst hzero
    rw [Numeral.digits_zero]
    cases rest with
    | nil => rfl
    | cons b after =>
        have hb := (h b rfl).1
        simpa [skipNumber, digitByte, hb] using htail
  · obtain ⟨d, more, hcons, hlead, hdigit, -, hdrop⟩ := exists_cons_digits hzero h
    rw [hcons]
    simpa [skipNumber, hlead, hdigit, hdrop] using htail

-- Values

theorem skipValue_text (h : skipText rest = .ok after) : skipValue (0x22 :: rest) = .ok after := by
  simp [skipValue, skipValues, skip, isSpace, isDigit, h]

theorem passedOver_text (s : String) : PassedOver (text s) := by
  intro rest _
  rw [encode_text]
  exact skipValue_text (skipText_written s rest)

theorem passedOver_nat (n : Nat) : PassedOver (nat n) := by
  intro rest hrest
  have hskip := skipNumber_digits n hrest
  obtain ⟨d, more, hcons, hd⟩ := encode_digits_cons n
  have hne : ∀ b, isDigit b = false → d ≠ b := fun b hb => ne_of_isDigit hd hb
  rw [nat, write, encode_natural (Int.natCast_nonneg n), Int.natAbs_natCast]
  rw [hcons, List.cons_append] at hskip ⊢
  simp [skipValue, skipValues, skip, isSpace_of_isDigit hd, hne 0x6E (by decide),
    hne 0x74 (by decide), hne 0x66 (by decide), hne 0x2D (by decide), hd, hskip]

theorem passedOver_flag (b : Bool) : PassedOver (bool b) := by
  intro rest _
  cases b with
  | true =>
      have hword : encode ['t', 'r', 'u', 'e'] = 0x74 :: rrue := by decide
      simp [write, hword, skipValue, skipValues, skip, isSpace, readWord, rrue]
  | false =>
      have hword : encode ['f', 'a', 'l', 's', 'e'] = 0x66 :: ralse := by decide
      simp [write, hword, skipValue, skipValues, skip, isSpace, readWord, ralse]

end RequestGuard.Json
