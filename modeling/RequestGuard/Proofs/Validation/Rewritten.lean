import RequestGuard.Proofs.Markup.Attacks
import RequestGuard.Proofs.Validation.Rewriting

namespace RequestGuard

-- Where tags are stripped a pattern may come about from what stood on both sides of one. Without
-- that only escaping is left, and it completes a statement at most.

theorem toList_escapeMarkup (s : String) : (escapeMarkup s).toList = Markup.escaped s.toList := by
  rw [escapeMarkup, String.toList_ofList]

theorem hasScript_of_escapeMarkup {s : String} (h : hasScript (escapeMarkup s) = true) :
    hasScript s = true := by
  rw [hasScript, Pattern.occursIn_iff] at h ⊢
  rw [toList_escapeMarkup] at h
  exact Attack.script_of_escaped h

theorem url_of_hasScript {s : String} (h : hasScript (escapeMarkup s) = true) :
    Attack.scriptUrl.occursIn (escapeMarkup s).toList = true ∨
      Attack.dataUrl.occursIn (escapeMarkup s).toList = true := by
  rw [hasScript, Pattern.occursIn_iff] at h
  rw [Pattern.occursIn_iff, Pattern.occursIn_iff]
  rw [toList_escapeMarkup] at h ⊢
  exact Attack.url_of_escaped h

theorem hasQuery_of_escapeMarkup {s : String} (h : hasQuery (escapeMarkup s) = true) :
    hasQuery s = true ∨ Attack.stackedStatement.occursIn (escapeMarkup s).toList = true := by
  rw [hasQuery, Pattern.occursIn_iff] at h ⊢
  rw [Pattern.occursIn_iff]
  rw [toList_escapeMarkup] at h ⊢
  exact Attack.query_of_escaped h

namespace Validation

open Json (WholeNumbers shortened)

variable {settings : ValidationSettings} {contentType query : Option String} {body : Bytes}
  {validated : Validated}

-- How a text that goes on comes from one that was let in.
structure CleanedFrom (settings : ValidationSettings) (s t : String) : Prop where
  cleaned : s = cleaned settings.escapeMarkup t
  unsuspected : Unsuspected settings t
  script : settings.refuseScript = true → hasScript s = true → stripTags t ≠ t
  address : settings.escapeMarkup = true → hasScript s = true →
    Attack.scriptUrl.occursIn s.toList = true ∨ Attack.dataUrl.occursIn s.toList = true
  query : settings.refuseQuery = true → hasQuery s = true →
    stripTags t ≠ t ∨
      settings.escapeMarkup = true ∧ Attack.stackedStatement.occursIn s.toList = true

theorem cleanedFrom {t : String} (hclear : Unsuspected settings t) :
    CleanedFrom settings (cleaned settings.escapeMarkup t) t := by
  have hscript : settings.refuseScript = true → hasScript t = false := hclear .script
  have hquery : settings.refuseQuery = true → hasQuery t = false := hclear .query
  refine ⟨rfl, hclear, fun hon hs hsame => ?_, fun hescape hs => ?_, fun hon hs => ?_⟩
  · rw [cleaned, hsame] at hs
    split at hs
    · exact absurd ((hasScript_of_escapeMarkup hs).symm.trans (hscript hon)) (by decide)
    · exact absurd (hs.symm.trans (hscript hon)) (by decide)
  · rw [cleaned, if_pos hescape] at hs ⊢
    exact url_of_hasScript hs
  · refine or_iff_not_imp_left.mpr fun hsame => ?_
    rw [not_not] at hsame
    rw [cleaned, hsame] at hs ⊢
    split at hs
    · next hescape =>
        rcases hasQuery_of_escapeMarkup hs with hbefore | hstacked
        · exact absurd (hbefore.symm.trans (hquery hon)) (by decide)
        · exact ⟨hescape, by rwa [if_pos hescape]⟩
    · exact absurd (hs.symm.trans (hquery hon)) (by decide)

-- Every text of a body that is written anew comes from one that no detector finds fault with.
-- If it is found fault with itself, a tag was taken out of it or, for a statement, an entity
-- was put before it.
theorem rewritten_texts_cleanedFrom (hclean : settings.cleanTexts = true)
    (h : validate settings contentType query body = .ok validated) {written : Bytes}
    (hbody : validated.body = some written) :
    ∃ kind value result, Holds contentType body kind value ∧
      writeBody kind result = .ok written ∧
      ((kind = .json → WholeNumbers value) → readBody kind written = .ok result) ∧
      ∀ s, Mentions result s →
        ∃ t, Mentions (value.enforce settings).value t ∧ CleanedFrom settings s t := by
  have hsome : body ≠ [] := by
    rintro rfl
    cases validated_of_empty h
    contradiction
  obtain ⟨kind, value, hvalue⟩ := exists_holds hsome h
  have hadmits := admits_of_validate hvalue h
  have hshort := Json.enforce_value hadmits.unbroken
  have hresult : (sanitized settings (value.enforce settings).value).1 =
      ((shortened settings value).clean settings.escapeMarkup).1 := by
    rw [sanitized, if_pos hclean, hshort]
  refine ⟨kind, value, _, hvalue, hadmits.written hbody,
    fun hnumbers => hadmits.read_written hvalue.2.2 hnumbers hbody, fun s hs => ?_⟩
  rw [hresult] at hs
  obtain ⟨t, ht, rfl⟩ := mentions_clean hs
  exact ⟨t, hshort ▸ ht, cleanedFrom (hadmits.unsuspected ht)⟩

-- What stood around a tag.
theorem rewritten_texts_cleanedFrom_around_tag :
    ∃ validated, validate {} (some "text/plain") none (bytesOf "java<b>script:x") = .ok validated ∧
      validated.body = some (bytesOf "javascript:x") ∧
      ∃ kind value result, Holds (some "text/plain") (bytesOf "java<b>script:x") kind value ∧
        writeBody kind result = .ok (bytesOf "javascript:x") ∧
        ((kind = .json → WholeNumbers value) →
          readBody kind (bytesOf "javascript:x") = .ok result) ∧
        ∀ s, Mentions result s →
          ∃ t, Mentions (value.enforce {}).value t ∧ CleanedFrom {} s t := by
  have hrun : (validate {} (some "text/plain") none (bytesOf "java<b>script:x")).toOption.map
      (·.body) = some (some (bytesOf "javascript:x")) := by decide +kernel
  obtain ⟨validated, hok, hbody⟩ := exists_ok_of_toOption hrun
  exact ⟨validated, hok, hbody, rewritten_texts_cleanedFrom rfl hok hbody⟩

-- A tag in the middle of an address and an entity before a statement: what goes on is found fault
-- with though what came was not.
theorem attack_in_rewritten_text :
    (∃ validated, validate {} (some "text/plain") none (bytesOf "java<b>script:x") = .ok validated ∧
        validated.body = some (bytesOf "javascript:x")) ∧
      readBody .text (bytesOf "javascript:x") = .ok (.text "javascript:x") ∧
      Mentions (.text "javascript:x") "javascript:x" ∧ hasScript "javascript:x" = true ∧
    (∃ validated, validate {} (some "text/plain") none (bytesOf "& drop table x") = .ok validated ∧
        validated.body = some (bytesOf "&amp; drop table x")) ∧
      readBody .text (bytesOf "&amp; drop table x") = .ok (.text "&amp; drop table x") ∧
      Mentions (.text "&amp; drop table x") "&amp; drop table x" ∧
      hasQuery "&amp; drop table x" = true ∧
    ({} : ValidationSettings).cleanTexts = true ∧ ({} : ValidationSettings).refuseScript = true ∧
      ({} : ValidationSettings).refuseQuery = true := by
  have hscript : (validate {} (some "text/plain") none (bytesOf "java<b>script:x")).toOption.map
      (·.body) = some (some (bytesOf "javascript:x")) := by decide +kernel
  have hquery : (validate {} (some "text/plain") none (bytesOf "& drop table x")).toOption.map
      (·.body) = some (some (bytesOf "&amp; drop table x")) := by decide +kernel
  have hread : ∀ s, readBody .text (bytesOf s) = .ok (.text s) := fun s => by
    simp only [readBody, Utf8.decode_bytesOf]
  have hmentions : ∀ s, Mentions (.text s) s := fun s => (mentions_leaf rfl).mpr rfl
  exact ⟨exists_ok_of_toOption hscript, hread _, hmentions _, by decide +kernel,
    exists_ok_of_toOption hquery, hread _, hmentions _, by decide +kernel, rfl, rfl, rfl⟩

end Validation

end RequestGuard
