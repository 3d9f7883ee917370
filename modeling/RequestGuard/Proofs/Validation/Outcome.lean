import RequestGuard.Proofs.Validation.Acceptance
import RequestGuard.Proofs.Validation.Cleaned

namespace RequestGuard.Validation

open Json (shortened bind_eq_ok)

variable {settings : ValidationSettings} {contentType query : Option String} {body : Bytes}
  {kind : BodyKind} {value : Json} {validated : Validated}

-- The value that goes on, and how many of its texts and keys were cleaned.
def sanitized (settings : ValidationSettings) (value : Json) : Json × Nat :=
  if settings.cleanTexts then value.clean settings.escapeMarkup else (value, 0)

theorem accepted_eq (settings : ValidationSettings) (kind : BodyKind) (value : Json)
    (cut : List String) :
    accepted settings kind value cut =
      if (sanitized settings value).2 = 0 && cut.isEmpty then .ok {}
      else
        match writeBody kind (sanitized settings value).1 with
        | .error failure => .error (refuse failure)
        | .ok body => .ok ⟨some body, cut, (sanitized settings value).2⟩ := rfl

-- A body goes on as it came if nothing in it was cleaned or cut, and else it is written anew.
theorem accepted_eq_ok {cut : List String} (h : accepted settings kind value cut = .ok validated) :
    (validated = {} ∧ (sanitized settings value).2 = 0 ∧ cut = []) ∨
      ∃ written, writeBody kind (sanitized settings value).1 = .ok written ∧
        validated = ⟨some written, cut, (sanitized settings value).2⟩ := by
  rw [accepted_eq] at h
  split at h
  · next hunchanged =>
      rw [Bool.and_eq_true, decide_eq_true_eq, List.isEmpty_iff] at hunchanged
      exact .inl ⟨(Except.ok.inj h).symm, hunchanged⟩
  · split at h
    · contradiction
    · next written hwritten => exact .inr ⟨written, hwritten, (Except.ok.inj h).symm⟩

theorem bounded_eq_ok {result : Json} {cut : List String}
    (h : bounded settings value = .ok (result, cut)) :
    (value.enforce settings).violation = none ∧ result = shortened settings value ∧
      cut = (value.enforce settings).cut := by
  simp only [bounded] at h
  split at h
  · contradiction
  · next hnone =>
      cases h
      exact ⟨hnone, Json.enforce_value hnone, rfl⟩

theorem clear_of_detectAll {found : List (String × String)}
    (h : detectAll settings found = .ok ()) (detector : Detector) :
    Clear settings found detector := by
  by_cases hscript : Clear settings found .script
  · by_cases hquery : Clear settings found .query
    · cases detector with
      | script => exact hscript
      | query => exact hquery
    · obtain ⟨paths, hpaths⟩ := detectAll_of_query hscript hquery
      exact absurd (hpaths.symm.trans h) (by simp)
  · obtain ⟨paths, hpaths⟩ := detectAll_of_script hscript
    exact absurd (hpaths.symm.trans h) (by simp)

theorem exists_ok_of_toOption {x : Except ε α} {f : α → β} {b : β}
    (h : x.toOption.map f = some b) : ∃ a, x = .ok a ∧ f a = b := by
  cases x with
  | error e => contradiction
  | ok a => exact ⟨a, rfl, Option.some.inj h⟩

-- What is known of a request with a body that has been accepted.
structure Admits (settings : ValidationSettings) (query : Option String) (kind : BodyKind)
    (value : Json) (validated : Validated) : Prop where
  unbroken : (value.enforce settings).violation = none
  clear : ∀ detector,
    Clear settings (texts "" (shortened settings value) ++ queryTexts query) detector
  accepted : accepted settings kind (shortened settings value) (value.enforce settings).cut =
    .ok validated

theorem admits_of_validate (hvalue : Holds contentType body kind value)
    (h : validate settings contentType query body = .ok validated) :
    Admits settings query kind value validated := by
  have hsize : body.length ≤ settings.maxBytes := exists_ok_iff.mp ⟨validated, h⟩ .size
  cases hbounded : bounded settings value with
  | error r =>
      rw [validate_of_breach hsize hvalue.parsed hbounded] at h
      contradiction
  | ok pair =>
      obtain ⟨result, cut⟩ := pair
      rw [validate_of_bounded hsize hvalue.parsed hbounded] at h
      obtain ⟨⟨⟩, hdetect, haccepted⟩ := bind_eq_ok h
      obtain ⟨hunbroken, rfl, rfl⟩ := bounded_eq_ok hbounded
      exact ⟨hunbroken, clear_of_detectAll hdetect, haccepted⟩

-- No detector that is enabled finds fault with the text.
def Unsuspected (settings : ValidationSettings) (s : String) : Prop :=
  ∀ detector : Detector, detector.enabled settings = true → detector.detects s = false

theorem Admits.unsuspected (h : Admits settings query kind value validated) {s : String}
    (hs : Mentions (shortened settings value) s) : Unsuspected settings s := by
  intro detector hdetector
  obtain ⟨place, hplace⟩ := (mem_texts "" _ s).mpr hs
  exact h.clear detector hdetector s ⟨place, List.mem_append_left _ hplace⟩

theorem exists_holds (hbody : body ≠ [])
    (h : validate settings contentType query body = .ok validated) :
    ∃ kind value, Holds contentType body kind value := by
  have hpasses := exists_ok_iff.mp ⟨validated, h⟩
  obtain ⟨kind, hkind⟩ : ∃ kind, contentType.bind BodyKind.ofContentType? = some kind :=
    (hpasses .contentType).resolve_left hbody
  obtain ⟨value, hvalue⟩ := hpasses .grammar kind hbody hkind
  exact ⟨kind, value, hbody, hkind, hvalue⟩

-- A request without a body has none that could be written anew.
theorem validated_of_empty (h : validate settings contentType query [] = .ok validated) :
    validated = {} := by
  have hsize : ([] : Bytes).length ≤ settings.maxBytes := Nat.zero_le _
  rw [validate_of_empty hsize rfl] at h
  obtain ⟨-, -, hvalidated⟩ := bind_eq_ok h
  exact (Except.ok.inj hvalidated).symm

end RequestGuard.Validation
