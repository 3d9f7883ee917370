import RequestGuard.Proofs.Validation.Rewriting

namespace RequestGuard.Validation

open Json (LastOfKey gathered shortened)

variable {settings : ValidationSettings} {contentType query : Option String} {body other : Bytes}
  {validated : Validated}

-- The members of a form are its pairs, of those of one name the last.

def members (body : Bytes) : List (String × Json) :=
  gathered [] ((Form.read body).map fun pair => (pair.1, .text pair.2))

theorem readBody_form (body : Bytes) : readBody .form body = .ok (.object (members body)) := rfl

theorem mem_members_iff {name : String} {v : Json} :
    (name, v) ∈ members body ↔ ∃ s, .text s = v ∧ LastOfKey (Form.read body) (name, s) := by
  rw [members, Json.mem_gathered_iff, Json.lastOfKey_map]

theorem members_congr
    (h : ∀ pair, LastOfKey (Form.read other) pair ↔ LastOfKey (Form.read body) pair) :
    members other = members body := by
  refine (Json.ascending_gathered .nil _).eq_of_mem_iff (Json.ascending_gathered .nil _) ?_
  rintro ⟨name, v⟩
  show (name, v) ∈ members other ↔ (name, v) ∈ members body
  simp only [mem_members_iff, h]

theorem validate_congr (hsize : body.length ≤ settings.maxBytes)
    (hfits : other.length ≤ settings.maxBytes)
    (hparsed : parsed contentType other = parsed contentType body) :
    validate settings contentType query other = validate settings contentType query body := by
  simp only [validate, if_neg (Nat.not_lt.mpr hsize), if_neg (Nat.not_lt.mpr hfits), hparsed]

theorem holds_form (hbody : body ≠ [])
    (hkind : contentType.bind BodyKind.ofContentType? = some .form) :
    Holds contentType body .form (.object (members body)) :=
  ⟨hbody, hkind, readBody_form body⟩

-- The last pair of a name is checked as it is handed on.
theorem last_pair_checked (hkind : contentType.bind BodyKind.ofContentType? = some .form)
    (h : validate settings contentType query body = .ok validated)
    (hbody : validated.body = none) {pair : String × String}
    (hlast : LastOfKey (Form.read body) pair) :
    Unsuspected settings pair.1 ∧ Unsuspected settings pair.2 ∧
      pair.2.length ≤ settings.maxCharacters := by
  have hsome : body ≠ [] := by
    rintro rfl
    exact absurd hlast Json.lastOfKey_nil
  have hvalue := holds_form hsome hkind
  have hadmits := admits_of_validate hvalue h
  obtain ⟨huncut, -, -⟩ := hadmits.untouched hvalue.2.2 hbody
  rw [Json.enforce_value hadmits.unbroken] at huncut
  have hmember : (pair.1, Json.text pair.2) ∈ members body :=
    mem_members_iff.mpr ⟨pair.2, rfl, hlast⟩
  have hpart : Json.IsPart (.text pair.2) (shortened settings (.object (members body))) := by
    rw [huncut]
    exact Json.isPart_object.mpr (.inr ⟨_, hmember, (Json.isPart_leaf rfl).mpr rfl⟩)
  have hname : Mentions (shortened settings (.object (members body))) pair.1 := by
    rw [huncut]
    exact mentions_object.mpr ⟨_, hmember, .inl rfl⟩
  exact ⟨hadmits.unsuspected hname, hadmits.unsuspected (.inl hpart),
    Json.length_le_of_shortened (Json.within_of_unbroken hadmits.unbroken) hpart⟩

-- In a form that goes on as it came every name has been checked, and of the pairs of one name the
-- value of the last. The values before it are not looked at: they may be any others.
theorem form_fields_checked (hkind : contentType.bind BodyKind.ofContentType? = some .form)
    (h : validate settings contentType query body = .ok validated)
    (hbody : validated.body = none) :
    (∀ pair ∈ Form.read body, Unsuspected settings pair.1) ∧
      (∀ pair, LastOfKey (Form.read body) pair →
        Unsuspected settings pair.2 ∧ pair.2.length ≤ settings.maxCharacters) ∧
      ∀ other : Bytes, body ≠ [] → other ≠ [] → other.length ≤ settings.maxBytes →
        (∀ pair, LastOfKey (Form.read other) pair ↔ LastOfKey (Form.read body) pair) →
        validate settings contentType query other = .ok validated := by
  refine ⟨fun pair hpair => ?_, fun pair hlast => (last_pair_checked hkind h hbody hlast).2,
    fun other hsome hother hfits hsame => ?_⟩
  · obtain ⟨last, hlast, hname⟩ := Json.exists_lastOfKey hpair
    exact hname ▸ (last_pair_checked hkind h hbody hlast).1
  · have hsize : body.length ≤ settings.maxBytes := exists_ok_iff.mp ⟨validated, h⟩ .size
    have hparsed : parsed contentType other = parsed contentType body := by
      rw [(holds_form hother hkind).parsed, (holds_form hsome hkind).parsed, members_congr hsame]
    rw [validate_congr hsize hfits hparsed, h]

-- A script and the start of a query in the first of two pairs.
theorem form_fields_checked_of_repeated :
    ∃ validated,
      validate {} (some "application/x-www-form-urlencoded") none
        (bytesOf "a=%3Cscript%3E&a=1") = .ok validated ∧
      validated.body = none ∧
      LastOfKey (Form.read (bytesOf "a=%3Cscript%3E&a=1")) ("a", "1") ∧
      Unsuspected {} "1" ∧ "1".length ≤ ({} : ValidationSettings).maxCharacters ∧
      validate {} (some "application/x-www-form-urlencoded") none (bytesOf "a=%27--&a=1") =
        .ok validated := by
  have hrun : (validate {} (some "application/x-www-form-urlencoded") none
      (bytesOf "a=%3Cscript%3E&a=1")).toOption.map (·.body) = some none := by decide +kernel
  obtain ⟨validated, hok, hbody⟩ := exists_ok_of_toOption hrun
  have hscript : Form.read (bytesOf "a=%3Cscript%3E&a=1") = [("a", "<script>"), ("a", "1")] := by
    decide +kernel
  have hquery : Form.read (bytesOf "a=%27--&a=1") = [("a", "'--"), ("a", "1")] := by
    decide +kernel
  have hlast : ∀ v pair, LastOfKey [("a", v), ("a", "1")] pair ↔ pair = ("a", "1") := by
    intro v pair
    simp only [Json.lastOfKey_cons, Json.lastOfKey_nil, false_or, List.forall_mem_singleton]
    constructor
    · rintro (⟨rfl, -⟩ | ⟨rfl, hne⟩)
      · rfl
      · exact absurd rfl hne
    · rintro rfl
      exact .inl ⟨rfl, by simp⟩
  have hone : LastOfKey (Form.read (bytesOf "a=%3Cscript%3E&a=1")) ("a", "1") := by
    rw [hscript, hlast]
  obtain ⟨-, hvalues, hothers⟩ := form_fields_checked (by decide +kernel) hok hbody
  refine ⟨validated, hok, hbody, hone, (hvalues _ hone).1, (hvalues _ hone).2, ?_⟩
  refine hothers _ (by decide +kernel) (by decide +kernel) (by decide +kernel) fun pair => ?_
  rw [hscript, hquery, hlast, hlast]

theorem repeated_field_unchecked :
    ∃ validated,
      validate {} (some "application/x-www-form-urlencoded") none
        (bytesOf "a=%3Cscript%3E&a=1") = .ok validated ∧
      validated.body = none ∧ ("a", "<script>") ∈ Form.read (bytesOf "a=%3Cscript%3E&a=1") ∧
      ({} : ValidationSettings).refuseScript = true ∧ hasScript "<script>" = true := by
  have hrun : (validate {} (some "application/x-www-form-urlencoded") none
      (bytesOf "a=%3Cscript%3E&a=1")).toOption.map (·.body) = some none := by decide +kernel
  obtain ⟨validated, hok, hbody⟩ := exists_ok_of_toOption hrun
  exact ⟨validated, hok, hbody, by decide +kernel, rfl, by decide +kernel⟩

end RequestGuard.Validation
