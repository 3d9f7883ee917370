import RequestGuard.Proofs.Form.Growth
import RequestGuard.Proofs.Json.NumberIntake
import RequestGuard.Proofs.Validation.Rewriting
import Mathlib.Algebra.BigOperators.Ring.List

namespace RequestGuard.Validation

open Json (IsPart WholeNumbers extent numberSize shortText shortened wholeSize)
open Markup (growth marks weight)

variable {settings : ValidationSettings} {contentType query : Option String} {body : Bytes}
  {kind : BodyKind} {value : Json} {validated : Validated}

-- How many times longer than before a text may be that goes on.
def growthUnder (settings : ValidationSettings) : Nat :=
  growth (settings.cleanTexts && settings.escapeMarkup)

theorem growthUnder_pos (settings : ValidationSettings) : 1 ≤ growthUnder settings :=
  Markup.growth_pos _

-- What becomes of a text.
def sanitizedText (settings : ValidationSettings) (s : String) : String :=
  if settings.cleanTexts then cleaned settings.escapeMarkup s else s

theorem weight_sanitizedText_le {w : Char → Nat}
    (hentity : ∀ mark ∈ marks, weight w mark.1 ≤ 6 * w mark.2) (s : String) :
    weight w (sanitizedText settings s).toList ≤ growthUnder settings * weight w s.toList := by
  unfold sanitizedText growthUnder
  split
  · next hclean =>
      rw [hclean, Bool.true_and]
      exact Markup.weight_cleaned_le_growth settings.escapeMarkup hentity s
  · exact Nat.le_mul_of_pos_left _ (Markup.growth_pos _)

theorem length_sanitizedText_le (s : String) :
    (sanitizedText settings s).length ≤ growthUnder settings * s.length := by
  have hweight : weight (fun _ => 1) (sanitizedText settings s).toList ≤
      growthUnder settings * weight (fun _ => 1) s.toList :=
    weight_sanitizedText_le (by decide) s
  rwa [Markup.weight_one, Markup.weight_one, String.length_toList, String.length_toList]
    at hweight

theorem exists_of_isPart_sanitized {s : String} (h : IsPart (.text s) (sanitized settings value).1) :
    ∃ t, IsPart (.text t) value ∧ s = sanitizedText settings t := by
  unfold sanitized at h
  unfold sanitizedText
  split at h
  · next hclean =>
      obtain ⟨before, hbefore, heq⟩ := Json.exists_of_isPart_clean h
      cases before with
      | text t => exact ⟨t, hbefore, by rw [if_pos hclean, Json.text.inj heq]⟩
      | _ => contradiction
  · next hclean => exact ⟨s, h, by rw [if_neg hclean]⟩

theorem extent_sanitized_le {size : Number → Nat} (value : Json) :
    extent 1 size (sanitized settings value).1 ≤ extent (growthUnder settings) size value := by
  unfold sanitized growthUnder
  split
  · next hclean =>
      rw [hclean, Bool.true_and]
      exact Json.extent_clean_le value
  · next hclean =>
      rw [Bool.eq_false_iff.mpr hclean, Bool.false_and]
      exact Nat.le_refl _

-- The bytes of what goes on, by the kind of the body.

theorem length_written_json {written : Bytes} {price : Nat} {size : Number → Nat}
    (hfactor : growthUnder settings ≤ price) (hnumbers : Json.PaysNumbers price size)
    (hread : readBody .json body = .ok value)
    (hsize : extent 1 numberSize (sanitized settings (shortened settings value)).1 =
      extent 1 size (sanitized settings (shortened settings value)).1)
    (hwritten : writeBody .json (sanitized settings (shortened settings value)).1 = .ok written) :
    written.length ≤ price * body.length := by
  cases hparse : Json.parse body with
  | error fault => simp [readBody, hparse, Except.mapError] at hread
  | ok v =>
      simp only [readBody, hparse, Except.mapError, Except.ok.injEq] at hread
      subst hread
      cases hwritten
      have hprice : 1 ≤ price := (growthUnder_pos settings).trans hfactor
      calc (bytesOf (Json.written _)).length
          = extent 1 numberSize _ := by
            rw [Json.written, Utf8.bytesOf_ofList, Json.length_encode_write]
        _ = extent 1 size _ := hsize
        _ ≤ extent (growthUnder settings) size (shortened settings v) := extent_sanitized_le _
        _ ≤ extent (growthUnder settings) size v := Json.extent_shortened_le v
        _ ≤ price * body.length := Json.extent_parse hfactor hprice hnumbers hparse

theorem length_written_text {written : Bytes} (hread : readBody .text body = .ok value)
    (hwritten : writeBody .text (sanitized settings (shortened settings value)).1 = .ok written) :
    written.length ≤ growthUnder settings * body.length := by
  obtain ⟨s, rfl⟩ := shaped_readBody hread
  have hbytes : bytesOf s = body := by
    simp only [readBody] at hread
    split at hread
    · next hdecode =>
        cases hread
        exact Utf8.bytesOf_of_decode hdecode
    · contradiction
  have hresult : (sanitized settings (shortened settings (.text s))).1 =
      .text (sanitizedText settings (shortText settings s)) := by
    unfold sanitized sanitizedText
    split
    · rfl
    · rfl
  rw [hresult] at hwritten
  cases hwritten
  have hsize : ∀ t : String, (bytesOf t).length = weight Char.utf8Size t.toList :=
    fun t => Json.length_encode t.toList
  rw [← hbytes, hsize, hsize]
  exact (weight_sanitizedText_le (by decide) _).trans
    (Nat.mul_le_mul_left _ (Markup.weight_le_of_sublist (Json.shortText_sublist s)))

-- The characters of a field, and one for the equals sign.
def fieldLength (member : String × Json) : Nat :=
  (formPair member).1.length + (formPair member).2.length + 1

theorem sum_fieldLength_le (hread : readBody .form body = .ok value) :
    ∃ members, value = .object members ∧ (members.map fieldLength).sum ≤ body.length + 1 := by
  cases hread
  refine ⟨_, rfl, ?_⟩
  have hgathered := Json.sum_gathered_le fieldLength []
    ((Form.read body).map fun pair => (pair.1, Json.text pair.2))
  rw [List.map_nil, List.sum_nil, Nat.zero_add, List.map_map] at hgathered
  exact hgathered.trans (Form.sum_read_le body)

theorem fieldLength_shortened_le (member : String × Json) :
    fieldLength (member.1, shortened settings member.2) ≤ fieldLength member := by
  obtain ⟨key, v⟩ := member
  cases v with
  | text s =>
      have hcut : (shortText settings s).toList.length ≤ s.toList.length :=
        (Json.shortText_sublist s).length_le
      rw [String.length_toList, String.length_toList] at hcut
      simp only [fieldLength, formPair, shortened]
      omega
  | _ => exact Nat.le_refl _

theorem length_writePair_le (pair : String × String) :
    (Form.writePair pair).length + 11 ≤ 12 * (pair.1.length + pair.2.length + 1) := by
  have hname := Form.length_escape_le pair.1
  have hvalue := Form.length_escape_le pair.2
  rw [Form.writePair, List.length_append, List.length_cons]
  omega

theorem length_writePair_cleaned_le (escape : Bool) (member : String × Json) :
    (Form.writePair (formPair (cleaned escape member.1, (member.2.clean escape).1))).length + 11 ≤
      12 * fieldLength member := by
  obtain ⟨key, v⟩ := member
  have hname := Form.length_escape_cleaned_le escape key
  cases v with
  | text s =>
      have hvalue := Form.length_escape_cleaned_le escape s
      simp only [fieldLength, formPair, Json.clean, Form.writePair, List.length_append,
        List.length_cons]
      omega
  | _ =>
      have hempty : (Form.escape "").length = 0 := rfl
      simp only [fieldLength, formPair, Json.clean, Json.ofMembers, Form.writePair,
        List.length_append, List.length_cons, hempty]
      omega

theorem length_written_form {written : Bytes} (hread : readBody .form body = .ok value)
    (hwritten : writeBody .form (sanitized settings (shortened settings value)).1 = .ok written) :
    written.length ≤ 12 * body.length + 1 := by
  obtain ⟨members, rfl, hmembers⟩ := sum_fieldLength_le hread
  have hcut : ((members.map fun member => (member.1, shortened settings member.2)).map
      fieldLength).sum ≤ (members.map fieldLength).sum := by
    rw [List.map_map]
    apply List.sum_le_sum
    intro member _
    exact fieldLength_shortened_le member
  rw [shortened, Json.shortenedMembers_eq_map] at hwritten
  generalize (members.map fun member => (member.1, shortened settings member.2)) = cut
    at hcut hwritten
  have hscaled : ∀ f : String × Json → Nat, (∀ member, f member ≤ 12 * fieldLength member) →
      (cut.map f).sum ≤ 12 * (body.length + 1) := by
    intro f hf
    calc (cut.map f).sum
        ≤ (cut.map fun member => 12 * fieldLength member).sum :=
          List.sum_le_sum fun member _ => hf member
      _ = 12 * (cut.map fieldLength).sum := List.sum_map_mul_left ..
      _ ≤ 12 * (body.length + 1) := Nat.mul_le_mul_left 12 (hcut.trans hmembers)
  unfold sanitized at hwritten
  split at hwritten
  · simp only [Json.clean, Json.ofMembers_eq] at hwritten
    cases hwritten
    apply Form.length_write_le
    rw [List.map_map]
    have hgathered := Json.sum_gathered_le
      (fun member => (Form.writePair (formPair member)).length + 11) []
      (Json.cleanMembers settings.escapeMarkup cut).1
    rw [List.map_nil, List.sum_nil, Nat.zero_add, Json.cleanMembers_eq_map, List.map_map]
      at hgathered
    rw [Json.cleanMembers_eq_map]
    exact hgathered.trans (hscaled _ (length_writePair_cleaned_le settings.escapeMarkup))
  · cases hwritten
    apply Form.length_write_le
    rw [List.map_map]
    exact hscaled _ fun member => length_writePair_le (formPair member)

theorem length_written_le {written : Bytes} (hread : readBody kind body = .ok value)
    (hwritten : writeBody kind (sanitized settings (shortened settings value)).1 = .ok written) :
    written.length ≤ 12 * body.length + 1 := by
  have hgrowth : growthUnder settings ≤ 12 := (Markup.growth_le _).trans (by decide)
  cases kind with
  | json =>
      have hlength := length_written_json hgrowth Json.paysNumbers_written hread rfl hwritten
      omega
  | form => exact length_written_form hread hwritten
  | text =>
      have hlength := length_written_text hread hwritten
      have hscaled := Nat.mul_le_mul_right body.length hgrowth
      omega

-- Where no real number is written, only the entities make a body longer.
theorem length_written_le_growth {written : Bytes} (hread : readBody kind body = .ok value)
    (hwritten : writeBody kind (sanitized settings (shortened settings value)).1 = .ok written)
    (hkind : kind ≠ .form) (hnumbers : kind = .json → WholeNumbers value) :
    written.length ≤ growthUnder settings * body.length := by
  cases kind with
  | json =>
      have hwhole : WholeNumbers (sanitized settings (shortened settings value)).1 :=
        (writable_readBody hread hnumbers).shorten.sanitize.1
      have hsize : extent 1 numberSize (sanitized settings (shortened settings value)).1 =
          extent 1 wholeSize (sanitized settings (shortened settings value)).1 := by
        apply Json.extent_congr
        intro n hn
        obtain ⟨i, rfl, -⟩ := hwhole n hn
        rfl
      exact length_written_json (Nat.le_refl _) (Json.paysNumbers_whole (growthUnder_pos settings))
        hread hsize hwritten
  | form => contradiction
  | text => exact length_written_text hread hwritten

-- The limits hold for a body as it comes and, with over-long texts cut, for each of its texts.
-- What cleaning and writing put in is not held to them: an entity has up to six characters for
-- one, a byte of a form up to twelve bytes and a separator that was not there, and a real number
-- that took three bytes is written with up to twenty-four.
theorem handed_on_within_limits
    (h : validate settings contentType query body = .ok validated) :
    body.length ≤ settings.maxBytes ∧
      (validated.body = none → ∀ kind value, Holds contentType body kind value →
        ∀ s, IsPart (.text s) value → s.length ≤ settings.maxCharacters) ∧
      ∀ written, validated.body = some written → ∃ kind value result,
        Holds contentType body kind value ∧
        result = (sanitized settings (value.enforce settings).value).1 ∧
        writeBody kind result = .ok written ∧
        ((kind = .json → WholeNumbers value) → readBody kind written = .ok result) ∧
        (∀ s, IsPart (.text s) result →
          s.length ≤ growthUnder settings * settings.maxCharacters ∧
            ∃ t, IsPart (.text t) (value.enforce settings).value ∧
              t.length ≤ settings.maxCharacters ∧ s = sanitizedText settings t) ∧
        written.length ≤ 12 * settings.maxBytes + 1 ∧
        (kind ≠ .form → (kind = .json → WholeNumbers value) →
          written.length ≤ growthUnder settings * settings.maxBytes) := by
  have hsize : body.length ≤ settings.maxBytes := exists_ok_iff.mp ⟨validated, h⟩ .size
  refine ⟨hsize, fun hnone kind value hvalue s hs => ?_, fun written hbody => ?_⟩
  · have hadmits := admits_of_validate hvalue h
    obtain ⟨hsame, -, -⟩ := hadmits.untouched hvalue.2.2 hnone
    rw [Json.enforce_value hadmits.unbroken] at hsame
    rw [← hsame] at hs
    exact Json.length_le_of_shortened (Json.within_of_unbroken hadmits.unbroken) hs
  · have hsome : body ≠ [] := by
      rintro rfl
      cases validated_of_empty h
      contradiction
    obtain ⟨kind, value, hvalue⟩ := exists_holds hsome h
    have hadmits := admits_of_validate hvalue h
    have hread := hvalue.2.2
    have hwritten := hadmits.written hbody
    refine ⟨kind, value, _, hvalue, rfl, hwritten,
      fun hnumbers => hadmits.read_written hread hnumbers hbody, fun s hs => ?_, ?_, ?_⟩
    · obtain ⟨t, ht, rfl⟩ := exists_of_isPart_sanitized hs
      have hlength : t.length ≤ settings.maxCharacters := by
        rw [Json.enforce_value hadmits.unbroken] at ht
        exact Json.length_le_of_shortened (Json.within_of_unbroken hadmits.unbroken) ht
      exact ⟨(length_sanitizedText_le t).trans (Nat.mul_le_mul_left _ hlength), t, ht, hlength, rfl⟩
    · rw [Json.enforce_value hadmits.unbroken] at hwritten
      have hbytes := length_written_le hread hwritten
      omega
    · intro hkind hnumbers
      rw [Json.enforce_value hadmits.unbroken] at hwritten
      have hbytes := length_written_le_growth hread hwritten hkind hnumbers
      exact hbytes.trans (Nat.mul_le_mul_left _ hsize)

-- A text that is cut before two of its characters become entities.
theorem handed_on_within_limits_after_cut :
    ∃ validated,
      validate { maxBytes := 3, maxCharacters := 2 } (some "text/plain") none (bytesOf "'<>") =
        .ok validated ∧
      validated.body = some (bytesOf "&#x27;&lt;") ∧
      ∃ kind value result, Holds (some "text/plain") (bytesOf "'<>") kind value ∧
        writeBody kind result = .ok (bytesOf "&#x27;&lt;") ∧
        (∀ s, IsPart (.text s) result → s.length ≤ 6 * 2) ∧
        (bytesOf "&#x27;&lt;").length ≤ 12 * 3 + 1 := by
  have hrun : (validate { maxBytes := 3, maxCharacters := 2 } (some "text/plain") none
      (bytesOf "'<>")).toOption.map (·.body) = some (some (bytesOf "&#x27;&lt;")) := by
    decide +kernel
  obtain ⟨validated, hok, hbody⟩ := exists_ok_of_toOption hrun
  obtain ⟨-, -, hrewritten⟩ := handed_on_within_limits hok
  obtain ⟨kind, value, result, hvalue, -, hwritten, -, htexts, hlength, -⟩ := hrewritten _ hbody
  exact ⟨validated, hok, hbody, kind, value, result, hvalue, hwritten,
    fun s hs => (htexts s hs).1, hlength⟩

-- A single quote as a text and as a form, under limits that it just keeps to: what goes on is
-- beyond both, and as long as it may be.
theorem quote_beyond_limits :
    (∃ validated,
      validate { maxBytes := 1, maxCharacters := 1 } (some "text/plain") none (bytesOf "'") =
        .ok validated ∧ validated.body = some (bytesOf "&#x27;")) ∧
      readBody .text (bytesOf "&#x27;") = .ok (.text "&#x27;") ∧
      IsPart (.text "&#x27;") (.text "&#x27;") ∧
      "&#x27;".length = 6 * 1 ∧ (bytesOf "&#x27;").length = 6 * 1 ∧
    (∃ validated,
      validate { maxBytes := 1, maxCharacters := 1 } (some "application/x-www-form-urlencoded") none
        (bytesOf "'") = .ok validated ∧ validated.body = some (bytesOf "%26%23x27%3B=")) ∧
      (bytesOf "%26%23x27%3B=").length = 12 * 1 + 1 ∧
    ({ maxBytes := 1, maxCharacters := 1 } : ValidationSettings).cutLongTexts = true := by
  have htext : (validate { maxBytes := 1, maxCharacters := 1 } (some "text/plain") none
      (bytesOf "'")).toOption.map (·.body) = some (some (bytesOf "&#x27;")) := by
    decide +kernel
  have hform : (validate { maxBytes := 1, maxCharacters := 1 }
      (some "application/x-www-form-urlencoded") none (bytesOf "'")).toOption.map (·.body) =
        some (some (bytesOf "%26%23x27%3B=")) := by
    decide +kernel
  have hread : readBody .text (bytesOf "&#x27;") = .ok (.text "&#x27;") := by
    simp only [readBody, Utf8.decode_bytesOf]
  exact ⟨exists_ok_of_toOption htext, hread, (Json.isPart_leaf rfl).mpr rfl, by decide, by decide,
    exists_ok_of_toOption hform, by decide, rfl⟩

end RequestGuard.Validation
