import RequestGuard.Proofs.Form
import RequestGuard.Proofs.Guard.Screening
import RequestGuard.Proofs.Json.RoundTrip
import RequestGuard.Proofs.Validation.Outcome

namespace RequestGuard.Validation

open Json (Ascending Canonical Nests WholeNumbers nestingLimit shortened)

variable {settings : ValidationSettings} {contentType query : Option String} {body : Bytes}
  {kind : BodyKind} {value : Json} {validated : Validated}

-- The values of each kind that come back as they are when they are written and read again.
def Writable : BodyKind → Json → Prop
  | .json, value => WholeNumbers value ∧ Nests nestingLimit value
  | .form, value =>
    ∃ members, value = .object members ∧ ∀ member ∈ members, ∃ s, member.2 = .text s
  | .text, value => ∃ s, value = .text s

theorem writable_readBody (h : readBody kind body = .ok value)
    (hnumbers : kind = .json → WholeNumbers value) : Writable kind value := by
  cases kind with
  | json =>
      refine ⟨hnumbers rfl, ?_⟩
      simp only [readBody] at h
      cases hparse : Json.parse body with
      | ok read =>
          simp only [hparse, Except.mapError] at h
          cases h
          exact Json.nests_parse hparse
      | error fault => simp [hparse, Except.mapError] at h
  | form =>
      cases h
      refine ⟨_, rfl, fun member hmember => ?_⟩
      have hpair := (Json.mem_gathered hmember).resolve_left List.not_mem_nil
      obtain ⟨⟨name, s⟩, -, rfl⟩ := List.mem_map.mp hpair
      exact ⟨s, rfl⟩
  | text => exact shaped_readBody h

theorem Writable.shorten (h : Writable kind value) : Writable kind (shortened settings value) := by
  cases kind with
  | json => exact ⟨h.1.shorten, h.2.shorten⟩
  | form =>
      obtain ⟨members, rfl, htexts⟩ := h
      refine ⟨_, rfl, fun member hmember => ?_⟩
      rw [Json.shortenedMembers_eq_map] at hmember
      obtain ⟨⟨key, v⟩, horiginal, rfl⟩ := List.mem_map.mp hmember
      obtain ⟨s, rfl⟩ := htexts _ horiginal
      exact ⟨_, rfl⟩
  | text =>
      obtain ⟨s, rfl⟩ := h
      exact ⟨_, rfl⟩

theorem Writable.clean (h : Writable kind value) (escape : Bool) :
    Writable kind (value.clean escape).1 := by
  cases kind with
  | json => exact ⟨h.1.clean, h.2.clean⟩
  | form =>
      obtain ⟨members, rfl, htexts⟩ := h
      refine ⟨_, rfl, fun member hmember => ?_⟩
      have hpair := (Json.mem_gathered hmember).resolve_left List.not_mem_nil
      obtain ⟨⟨key, v⟩, horiginal, rfl⟩ := Json.mem_cleanMembers hpair
      obtain ⟨s, rfl⟩ := htexts _ horiginal
      exact ⟨_, rfl⟩
  | text =>
      obtain ⟨s, rfl⟩ := h
      exact ⟨_, rfl⟩

theorem Writable.sanitize (h : Writable kind value) :
    Writable kind (sanitized settings value).1 := by
  unfold sanitized
  split
  · exact h.clean settings.escapeMarkup
  · exact h

theorem canonical_sanitized (h : Canonical value) : Canonical (sanitized settings value).1 := by
  unfold sanitized
  split
  · exact Json.canonical_clean value
  · exact h

-- What is written of a form has one pair for each member.
theorem readBody_writeForm {members : List (String × Json)} (hkeys : Ascending members)
    (htexts : ∀ member ∈ members, ∃ s, member.2 = .text s) :
    readBody .form (Form.write (members.map formPair)) = .ok (.object members) := by
  have hback : (members.map formPair).map (fun pair => (pair.1, Json.text pair.2)) = members := by
    rw [List.map_map]
    refine (List.map_congr_left fun member hmember => ?_).trans (List.map_id members)
    obtain ⟨key, v⟩ := member
    obtain ⟨s, rfl⟩ := htexts _ hmember
    rfl
  show Except.ok (Json.ofMembers ((Form.read _).map _)) = _
  rw [Form.read_write, hback, Json.ofMembers_of_ascending hkeys]

theorem readBody_writeBody {written : Bytes} (hcanonical : Canonical value)
    (hwritable : Writable kind value) (h : writeBody kind value = .ok written) :
    readBody kind written = .ok value := by
  cases kind with
  | json =>
      cases h
      simp only [readBody, Json.parse_written hcanonical hwritable.1 hwritable.2]
      rfl
  | form =>
      obtain ⟨members, rfl, htexts⟩ := hwritable
      cases h
      cases hcanonical with
      | object hkeys => exact readBody_writeForm hkeys htexts
  | text =>
      obtain ⟨s, rfl⟩ := hwritable
      cases h
      simp only [readBody, Utf8.decode_bytesOf]

-- Cleaning that counts nothing changes nothing.
theorem sanitized_of_uncounted (hcanonical : Canonical value)
    (h : (sanitized settings value).2 = 0) : (sanitized settings value).1 = value := by
  unfold sanitized at *
  split at h
  · next hclean =>
      rw [if_pos hclean]
      exact (Json.uncounted_iff hcanonical).mp h
  · next hclean => rw [if_neg hclean]

section Accepted

variable (h : Admits settings query kind value validated)
include h

theorem Admits.written {written : Bytes} (hbody : validated.body = some written) :
    writeBody kind (sanitized settings (value.enforce settings).value).1 = .ok written := by
  rw [Json.enforce_value h.unbroken]
  rcases accepted_eq_ok h.accepted with ⟨rfl, -⟩ | ⟨other, hwritten, rfl⟩
  · contradiction
  · cases hbody
    exact hwritten

theorem Admits.read_written {written : Bytes} (hread : readBody kind body = .ok value)
    (hnumbers : kind = .json → WholeNumbers value) (hbody : validated.body = some written) :
    readBody kind written = .ok (sanitized settings (value.enforce settings).value).1 := by
  have hwritten := h.written hbody
  rw [Json.enforce_value h.unbroken] at hwritten ⊢
  have hcanonical : Canonical (shortened settings value) := (canonical_readBody hread).shorten
  have hwritable : Writable kind (shortened settings value) :=
    (writable_readBody hread hnumbers).shorten
  exact readBody_writeBody (canonical_sanitized hcanonical) hwritable.sanitize hwritten

-- A body that goes on as it came holds a value that nothing was cut from and nothing cleaned in.
theorem Admits.untouched (hread : readBody kind body = .ok value)
    (hbody : validated.body = none) :
    (value.enforce settings).value = value ∧ (value.enforce settings).cut = [] ∧
      sanitized settings value = (value, 0) := by
  rcases accepted_eq_ok h.accepted with ⟨rfl, huncounted, huncut⟩ | ⟨other, -, rfl⟩
  · have hsame := Json.enforce_uncut huncut
    rw [← Json.enforce_value h.unbroken, hsame] at huncounted
    refine ⟨hsame, huncut, Prod.ext ?_ huncounted⟩
    exact sanitized_of_uncounted (canonical_readBody hread) huncounted
  · contradiction

end Accepted

-- An accepted body goes on as what is left of its value after the cuts and the cleaning. It is
-- handed on as it came only if that is the value itself.
theorem forwarded_body_exact (hvalue : Holds contentType body kind value)
    (hnumbers : kind = .json → WholeNumbers value)
    (h : validate settings contentType query body = .ok validated) :
    (∀ written, validated.body = some written →
        readBody kind written = .ok (sanitized settings (value.enforce settings).value).1) ∧
      (validated.body = none →
        (sanitized settings (value.enforce settings).value).1 = value ∧
          (value.enforce settings).cut = [] ∧
          (sanitized settings (value.enforce settings).value).2 = 0 ∧
          readBody kind body = .ok (sanitized settings (value.enforce settings).value).1) ∧
      ∀ request : Request, request.headers.text? "content-type" = contentType →
        request.query = query → request.body.collect settings.maxBytes = .ok body →
        request.declaredLength.any (settings.maxBytes < ·) = false →
        (∀ {α : Type} (next : Handler (Exchange α)) (exchange : Exchange α),
          (Guard.screening settings).process next request exchange =
            next (Guard.screened request body validated)
              (Guard.noteValidated validated exchange)) ∧
          (Guard.screened request body validated).body = .whole (validated.body.getD body) ∧
          ∀ written, validated.body = some written →
            (Guard.screened request body validated).headers.values "content-length" =
              [bytesOf (decimal written.length)] := by
  have hadmits := admits_of_validate hvalue h
  have hread := hvalue.2.2
  refine ⟨fun written hbody => hadmits.read_written hread hnumbers hbody, fun hbody => ?_, ?_⟩
  · obtain ⟨hsame, huncut, hsanitized⟩ := hadmits.untouched hread hbody
    rw [hsame, hsanitized]
    exact ⟨rfl, huncut, rfl, hread⟩
  · rintro request rfl rfl hcollected hdeclared
    exact ⟨Guard.screening_of_screens ⟨hdeclared, hcollected, h⟩,
      Guard.body_screened request body validated,
      fun written hbody => Guard.contentLength_screened hbody request body⟩

-- A text with a tag in it beside a number.
theorem forwarded_body_exact_of_tag :
    ∃ value validated, Holds (some "application/json") (bytesOf "[\"<b>x\",7]") .json value ∧
      WholeNumbers value ∧
      validate {} (some "application/json") none (bytesOf "[\"<b>x\",7]") = .ok validated ∧
      validated.body = some (bytesOf "[\"x\",7]") ∧
      readBody .json (bytesOf "[\"x\",7]") = .ok (sanitized {} (value.enforce {}).value).1 ∧
      (Guard.screened
        { headers := [("content-type", bytesOf "application/json")]
          body := .whole (bytesOf "[\"<b>x\",7]") }
        (bytesOf "[\"<b>x\",7]") validated).headers.values "content-length" = [bytesOf "7"] := by
  have hcanonical : Canonical (.array [.text "<b>x", .number (.integer 7)]) :=
    .array (List.forall_mem_cons.mpr ⟨.text _, List.forall_mem_singleton.mpr (.number _)⟩)
  have hnumbers : WholeNumbers (.array [.text "<b>x", .number (.integer 7)]) := by
    intro n hn
    obtain ⟨item, hitem, hn⟩ := (Json.isPart_array.mp hn).resolve_left (by simp)
    rcases List.mem_pair.mp hitem with rfl | rfl
    · exact absurd ((Json.isPart_leaf rfl).mp hn) (by simp)
    · cases (Json.isPart_leaf rfl).mp hn
      exact ⟨7, rfl, by decide, by decide⟩
  have hnests : Nests nestingLimit (.array [.text "<b>x", .number (.integer 7)]) :=
    Json.nests_array.mpr ⟨_, rfl, List.forall_mem_cons.mpr ⟨Json.nests_leaf rfl,
      List.forall_mem_singleton.mpr (Json.nests_leaf rfl)⟩⟩
  have hwritten : bytesOf (Json.written (.array [.text "<b>x", .number (.integer 7)])) =
      bytesOf "[\"<b>x\",7]" := by decide +kernel
  have hvalue : Holds (some "application/json") (bytesOf "[\"<b>x\",7]") .json
      (.array [.text "<b>x", .number (.integer 7)]) :=
    ⟨by decide +kernel, by decide +kernel,
      hwritten ▸ readBody_writeBody hcanonical ⟨hnumbers, hnests⟩ rfl⟩
  have hrun : (validate {} (some "application/json") none (bytesOf "[\"<b>x\",7]")).toOption.map
      (·.body) = some (some (bytesOf "[\"x\",7]")) := by decide +kernel
  obtain ⟨validated, hok, hbody⟩ := exists_ok_of_toOption hrun
  obtain ⟨hrewritten, -, hforwarded⟩ := forwarded_body_exact hvalue (fun _ => hnumbers) hok
  obtain ⟨-, -, hlength⟩ := hforwarded
    { headers := [("content-type", bytesOf "application/json")]
      body := .whole (bytesOf "[\"<b>x\",7]") }
    (by decide +kernel) rfl rfl rfl
  have hdecimal : bytesOf (decimal (bytesOf "[\"x\",7]").length) = bytesOf "7" := by decide +kernel
  exact ⟨_, validated, hvalue, hnumbers, hok, hbody, hrewritten _ hbody, hdecimal ▸ hlength _ hbody⟩
end RequestGuard.Validation
