import RequestGuard.Proofs.Json.Reading
import RequestGuard.Proofs.Validation.Bounds
import RequestGuard.Validation.Request

namespace RequestGuard.Validation

open Json (Canonical shortened)

-- There is a body, and it holds a value of the kind that its content type names.
def Holds (contentType : Option String) (body : Bytes) (kind : BodyKind) (value : Json) : Prop :=
  body ≠ [] ∧ contentType.bind BodyKind.ofContentType? = some kind ∧ readBody kind body = .ok value

variable {settings : ValidationSettings} {contentType : Option String} {body : Bytes}

theorem Holds.unique {kind other : BodyKind} {value also : Json}
    (h : Holds contentType body kind value) (halso : Holds contentType body other also) :
    value = also := by
  obtain ⟨-, hkind, hvalue⟩ := h
  obtain ⟨-, hother, halso⟩ := halso
  cases hkind.symm.trans hother
  exact Except.ok.inj (hvalue.symm.trans halso)

theorem parsed_of_unnamed (hbody : body ≠ [])
    (h : contentType.bind BodyKind.ofContentType? = none) :
    parsed contentType body = .error (refuse (contentTypeFailure contentType)) := by
  rw [parsed, if_neg (by simpa using hbody)]
  simp only [h]

theorem parsed_of_malformed (hbody : body ≠ []) {kind : BodyKind}
    (hkind : contentType.bind BodyKind.ofContentType? = some kind) {failure : Failure}
    (h : readBody kind body = .error failure) :
    parsed contentType body = .error (refuse failure) := by
  rw [parsed, if_neg (by simpa using hbody)]
  simp only [hkind, h]

theorem Holds.parsed {kind : BodyKind} {value : Json} (h : Holds contentType body kind value) :
    parsed contentType body = .ok (some (kind, value)) := by
  obtain ⟨hbody, hkind, hvalue⟩ := h
  rw [Validation.parsed, if_neg (by simpa using hbody)]
  simp only [hkind, hvalue]

theorem readBody_error {kind : BodyKind} {failure : Failure}
    (h : readBody kind body = .error failure) : failure.code = "VAL_MALFORMED" := by
  cases kind with
  | json =>
      simp only [readBody] at h
      cases hparse : Json.parse body with
      | ok value => simp [hparse, Except.mapError] at h
      | error fault =>
          simp only [hparse, Except.mapError] at h
          cases h
          rfl
  | form => contradiction
  | text =>
      simp only [readBody] at h
      split at h
      · contradiction
      · cases h
        rfl

-- Whatever a body is read as is canonical.
theorem canonical_readBody {kind : BodyKind} {value : Json} (h : readBody kind body = .ok value) :
    Canonical value := by
  cases kind with
  | json =>
      simp only [readBody] at h
      cases hparse : Json.parse body with
      | ok read =>
          simp only [hparse, Except.mapError] at h
          cases h
          exact Json.canonical_parse hparse
      | error fault => simp [hparse, Except.mapError] at h
  | form =>
      cases h
      refine Json.canonical_ofMembers fun pair hpair => ?_
      obtain ⟨⟨name, text⟩, -, rfl⟩ := List.mem_map.mp hpair
      exact .text text
  | text =>
      simp only [readBody] at h
      split at h
      · cases h
        exact .text _
      · contradiction

-- A value keeps the shape of its kind while it is held to the bounds and cleaned, so it can be
-- written again.

def Shaped : BodyKind → Json → Prop
  | .json, _ => True
  | .form, value => ∃ members, value = .object members
  | .text, value => ∃ s, value = .text s

theorem shaped_readBody {kind : BodyKind} {value : Json} (h : readBody kind body = .ok value) :
    Shaped kind value := by
  cases kind with
  | json => trivial
  | form => exact ⟨_, (Except.ok.inj h).symm⟩
  | text =>
      simp only [readBody] at h
      split at h
      · exact ⟨_, (Except.ok.inj h).symm⟩
      · contradiction

theorem Shaped.shorten {kind : BodyKind} {value : Json} (h : Shaped kind value) :
    Shaped kind (shortened settings value) := by
  cases kind with
  | json => trivial
  | form =>
      obtain ⟨members, rfl⟩ := h
      exact ⟨_, rfl⟩
  | text =>
      obtain ⟨s, rfl⟩ := h
      exact ⟨_, rfl⟩

theorem Shaped.clean {kind : BodyKind} {value : Json} (h : Shaped kind value) (escape : Bool) :
    Shaped kind (value.clean escape).1 := by
  cases kind with
  | json => trivial
  | form =>
      obtain ⟨members, rfl⟩ := h
      exact ⟨_, rfl⟩
  | text =>
      obtain ⟨s, rfl⟩ := h
      exact ⟨_, rfl⟩

theorem writeBody_of_shaped {kind : BodyKind} {value : Json} (h : Shaped kind value) :
    ∃ written, writeBody kind value = .ok written := by
  cases kind with
  | json => exact ⟨_, rfl⟩
  | form =>
      obtain ⟨members, rfl⟩ := h
      exact ⟨_, rfl⟩
  | text =>
      obtain ⟨s, rfl⟩ := h
      exact ⟨_, rfl⟩

theorem accepted_of_shaped {kind : BodyKind} {value : Json} (h : Shaped kind value)
    (settings : ValidationSettings) (cut : List String) :
    ∃ validated, accepted settings kind value cut = .ok validated := by
  unfold accepted
  by_cases hclean : settings.cleanTexts = true
  · obtain ⟨written, hwritten⟩ := writeBody_of_shaped (h.clean settings.escapeMarkup)
    simp only [if_pos hclean, hwritten]
    split
    · exact ⟨_, rfl⟩
    · exact ⟨_, rfl⟩
  · obtain ⟨written, hwritten⟩ := writeBody_of_shaped h
    simp only [if_neg hclean, hwritten]
    split
    · exact ⟨_, rfl⟩
    · exact ⟨_, rfl⟩

end RequestGuard.Validation
