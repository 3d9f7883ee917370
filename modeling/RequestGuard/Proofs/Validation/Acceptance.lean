import RequestGuard.Proofs.Validation.Bodies
import RequestGuard.Proofs.Validation.Detection

namespace RequestGuard.Validation

open Json (IsPart Within shortText shortened)

inductive Check where
  | size
  | contentType
  | grammar
  | bounds
  | attack (detector : Detector)

-- The order in which a request is checked.
def Check.rank : Check → Nat
  | size => 0
  | contentType => 1
  | grammar => 2
  | bounds => 3
  | attack .script => 4
  | attack .query => 5

variable (settings : ValidationSettings) (contentType query : Option String) (body : Bytes)

-- The texts that the caller controls: the texts of the body, cut where they are too long, its
-- keys and the values of the query.
def Exposes (s : String) : Prop :=
  (∃ kind value, Holds contentType body kind value ∧
    ((∃ t, IsPart (.text t) value ∧ s = shortText settings t) ∨
      ∃ members, IsPart (.object members) value ∧ ∃ member ∈ members, member.1 = s)) ∨
  ∃ q, query = some q ∧ ∃ name, (name, s) ∈ Form.read (bytesOf q)

def Passes : Check → Prop
  | .size => body.length ≤ settings.maxBytes
  | .contentType => body = [] ∨ ∃ kind, contentType.bind BodyKind.ofContentType? = some kind
  | .grammar => ∀ kind, body ≠ [] → contentType.bind BodyKind.ofContentType? = some kind →
      ∃ value, readBody kind body = .ok value
  | .bounds => ∀ kind value, Holds contentType body kind value → Within settings value
  | .attack detector => detector.enabled settings = true →
      ∀ s, Exposes settings contentType query body s → detector.detects s = false

def PassesBefore (check : Check) : Prop :=
  ∀ earlier : Check, earlier.rank < check.rank → Passes settings contentType query body earlier

def FailsFirst (check : Check) : Prop :=
  ¬Passes settings contentType query body check ∧
    PassesBefore settings contentType query body check

-- The code under which a failing check is told. The bounds tell their first breach.
def Reports : Check → String → Prop
  | .size, code => code = "VAL_SIZE"
  | .contentType, code => code = "VAL_CONTENT_TYPE"
  | .grammar, code => code = "VAL_MALFORMED"
  | .bounds, code => ∃ kind value violation, Holds contentType body kind value ∧
      (value.breaches settings "" 0).head? = some violation ∧ code = violation.code
  | .attack .script, code => code = "VAL_XSS"
  | .attack .query, code => code = "VAL_SQLI"

variable {settings contentType query body}

theorem Check.rank_injective {a b : Check} (h : a.rank = b.rank) : a = b := by
  rcases a with _ | _ | _ | _ | (_ | _) <;> rcases b with _ | _ | _ | _ | (_ | _) <;>
    first | rfl | exact absurd h (by decide)

theorem Reports.unique {check : Check} {a b : String}
    (ha : Reports settings contentType body check a)
    (hb : Reports settings contentType body check b) : a = b := by
  cases check with
  | bounds =>
      obtain ⟨_, value, violation, hvalue, hfirst, rfl⟩ := ha
      obtain ⟨_, also, other, halso, hother, rfl⟩ := hb
      cases hvalue.unique halso
      cases hfirst.symm.trans hother
      rfl
  | attack detector => cases detector <;> exact ha.trans hb.symm
  | _ => exact ha.trans hb.symm

theorem FailsFirst.unique {a b : Check} (ha : FailsFirst settings contentType query body a)
    (hb : FailsFirst settings contentType query body b) : a = b := by
  refine Check.rank_injective (Nat.le_antisymm ?_ ?_)
  · exact Nat.not_lt.mp fun hlt => hb.1 (ha.2 b hlt)
  · exact Nat.not_lt.mp fun hlt => ha.1 (hb.2 a hlt)

-- What each stage makes of a request.

theorem validate_of_large (h : settings.maxBytes < body.length) :
    validate settings contentType query body = .error (refuse (sizeFailure settings.maxBytes)) := by
  simp only [validate, if_pos h]
  rfl

theorem validate_of_unparsed (h : body.length ≤ settings.maxBytes) {r : Rejection}
    (hparsed : parsed contentType body = .error r) :
    validate settings contentType query body = .error r := by
  simp only [validate, if_neg (Nat.not_lt.mpr h), hparsed]
  rfl

theorem validate_of_empty (h : body.length ≤ settings.maxBytes)
    (hparsed : parsed contentType body = .ok none) :
    validate settings contentType query body =
      (detectAll settings (queryTexts query)).bind fun _ => .ok {} := by
  simp only [validate, if_neg (Nat.not_lt.mpr h), hparsed]
  rfl

theorem validate_of_breach (h : body.length ≤ settings.maxBytes) {kind : BodyKind} {value : Json}
    (hparsed : parsed contentType body = .ok (some (kind, value))) {r : Rejection}
    (hbounded : bounded settings value = .error r) :
    validate settings contentType query body = .error r := by
  simp only [validate, if_neg (Nat.not_lt.mpr h), hparsed]
  show (bounded settings value >>= _) = _
  rw [hbounded]
  rfl

theorem validate_of_bounded (h : body.length ≤ settings.maxBytes) {kind : BodyKind} {value : Json}
    (hparsed : parsed contentType body = .ok (some (kind, value))) {result : Json}
    {cut : List String} (hbounded : bounded settings value = .ok (result, cut)) :
    validate settings contentType query body =
      (detectAll settings (texts "" result ++ queryTexts query)).bind fun _ =>
        accepted settings kind result cut := by
  simp only [validate, if_neg (Nat.not_lt.mpr h), hparsed]
  show (bounded settings value >>= _) = _
  rw [hbounded]
  rfl

theorem bounded_of_breach {value : Json} {violation : Violation}
    (h : (value.breaches settings "" 0).head? = some violation) :
    bounded settings value =
      .error (refuse (.invalidField violation.code violation.path violation.message)) := by
  rw [← Json.enforce_violation] at h
  simp only [bounded, h]

theorem bounded_of_within {value : Json} (h : Within settings value) :
    ∃ cut, bounded settings value = .ok (shortened settings value, cut) := by
  have hnone : (value.enforce settings).violation = none := by
    rw [Json.enforce_violation, (Json.within_iff value).mpr h]
    rfl
  refine ⟨(value.enforce settings).cut, ?_⟩
  simp only [bounded, hnone, Json.enforce_value hnone]

-- The texts that the detectors are run on are those that the caller controls.

theorem mem_found_of_holds {kind : BodyKind} {value : Json}
    (h : Holds contentType body kind value) (s : String) :
    (∃ place, (place, s) ∈ texts "" (shortened settings value) ++ queryTexts query) ↔
      Exposes settings contentType query body s := by
  simp only [List.mem_append, exists_or, mem_texts, mem_queryTexts, mentions_shortened]
  refine or_congr_left ?_
  constructor
  · exact fun hs => ⟨kind, value, h, hs⟩
  · rintro ⟨other, also, halso, hs⟩
    cases h.unique halso
    exact hs

theorem mem_found_of_empty (s : String) :
    (∃ place, (place, s) ∈ queryTexts query) ↔ Exposes settings contentType query [] s := by
  rw [mem_queryTexts]
  constructor
  · exact .inr
  · rintro (⟨_, _, ⟨hbody, -⟩, -⟩ | hs)
    · contradiction
    · exact hs

theorem passesBefore_size : PassesBefore settings contentType query body .size :=
  fun _ h => absurd h (Nat.not_lt_zero _)

theorem PassesBefore.step {check : Check}
    (hbefore : PassesBefore settings contentType query body check)
    (hcheck : Passes settings contentType query body check) (next : Check)
    (hnext : next.rank = check.rank + 1) : PassesBefore settings contentType query body next := by
  intro earlier h
  rw [hnext] at h
  rcases Nat.lt_succ_iff_lt_or_eq.mp h with hlt | heq
  · exact hbefore earlier hlt
  · exact Check.rank_injective heq ▸ hcheck

theorem PassesBefore.all (hbefore : PassesBefore settings contentType query body (.attack .query))
    (hcheck : Passes settings contentType query body (.attack .query)) (check : Check) :
    Passes settings contentType query body check := by
  have hle : check.rank ≤ (Check.attack .query).rank := by
    rcases check with _ | _ | _ | _ | (_ | _) <;> decide
  rcases Nat.lt_or_eq_of_le hle with hlt | heq
  · exact hbefore check hlt
  · exact Check.rank_injective heq ▸ hcheck

-- A request passes all checks, or the first check that fails is reported.
def Outcome (settings : ValidationSettings) (contentType query : Option String) (body : Bytes)
    (result : Except Rejection Validated) : Prop :=
  (∃ validated, result = .ok validated ∧
    ∀ check, Passes settings contentType query body check) ∨
  ∃ r check, result = .error r ∧ FailsFirst settings contentType query body check ∧
    Reports settings contentType body check r.failure.code

theorem detectAll_outcome {found : List (String × String)} {validated : Validated}
    (hbefore : PassesBefore settings contentType query body (.attack .script))
    (hfound : ∀ s, (∃ place, (place, s) ∈ found) ↔ Exposes settings contentType query body s) :
    Outcome settings contentType query body
      ((detectAll settings found).bind fun _ => .ok validated) := by
  have hclear : ∀ detector, Clear settings found detector ↔
      Passes settings contentType query body (.attack detector) := by
    intro detector
    simp only [Clear, Passes, hfound]
  by_cases hscript : Clear settings found .script
  · have hnext := hbefore.step ((hclear .script).mp hscript) (.attack .query) rfl
    by_cases hquery : Clear settings found .query
    · refine .inl ⟨validated, ?_, hnext.all ((hclear .query).mp hquery)⟩
      rw [detectAll_of_clear fun detector => by cases detector <;> assumption]
      rfl
    · obtain ⟨paths, hpaths⟩ := detectAll_of_query hscript hquery
      refine .inr ⟨rejection .query paths, .attack .query, ?_, ⟨?_, hnext⟩, rfl⟩
      · rw [hpaths]
        rfl
      · exact fun h => hquery ((hclear .query).mpr h)
  · obtain ⟨paths, hpaths⟩ := detectAll_of_script hscript
    refine .inr ⟨rejection .script paths, .attack .script, ?_, ⟨?_, hbefore⟩, rfl⟩
    · rw [hpaths]
      rfl
    · exact fun h => hscript ((hclear .script).mpr h)

theorem validate_outcome_of_empty :
    Outcome settings contentType query [] (validate settings contentType query []) := by
  have hsize : Passes settings contentType query [] .size := Nat.zero_le _
  have hcontent : Passes settings contentType query [] .contentType := .inl rfl
  have hgrammar : Passes settings contentType query [] .grammar :=
    fun _ hbody _ => absurd rfl hbody
  have hbounds : Passes settings contentType query [] .bounds :=
    fun _ _ hholds => absurd rfl hholds.1
  rw [validate_of_empty hsize rfl]
  refine detectAll_outcome ?_ mem_found_of_empty
  exact (((passesBefore_size.step hsize .contentType rfl).step hcontent .grammar rfl).step hgrammar
    .bounds rfl).step hbounds (.attack .script) rfl

theorem validate_outcome_of_holds (hsize : body.length ≤ settings.maxBytes) {kind : BodyKind}
    {value : Json} (h : Holds contentType body kind value) :
    Outcome settings contentType query body (validate settings contentType query body) := by
  have hcontent : Passes settings contentType query body .contentType := .inr ⟨kind, h.2.1⟩
  have hgrammar : Passes settings contentType query body .grammar := by
    intro other _ hother
    cases h.2.1.symm.trans hother
    exact ⟨value, h.2.2⟩
  have hbefore : PassesBefore settings contentType query body .bounds :=
    ((passesBefore_size.step hsize .contentType rfl).step hcontent .grammar rfl).step hgrammar
      .bounds rfl
  by_cases hwithin : Within settings value
  · have hbounds : Passes settings contentType query body .bounds :=
      fun _ also halso => h.unique halso ▸ hwithin
    -- the detectors and the writer get the value as it is after the cuts
    obtain ⟨cut, hbounded⟩ := bounded_of_within hwithin
    have hshaped : Shaped kind (shortened settings value) := (shaped_readBody h.2.2).shorten
    obtain ⟨validated, haccepted⟩ := accepted_of_shaped hshaped settings cut
    rw [validate_of_bounded hsize h.parsed hbounded, haccepted]
    exact detectAll_outcome (hbefore.step hbounds (.attack .script) rfl) (mem_found_of_holds h)
  · obtain ⟨violation, hviolation⟩ : ∃ violation,
        (value.breaches settings "" 0).head? = some violation := by
      rw [← Json.within_iff] at hwithin
      cases hbreaches : value.breaches settings "" 0 with
      | nil => contradiction
      | cons violation rest => exact ⟨violation, rfl⟩
    refine .inr ⟨_, .bounds, validate_of_breach hsize h.parsed (bounded_of_breach hviolation),
      ⟨fun hbounds => hwithin (hbounds kind value h), hbefore⟩, ?_⟩
    exact ⟨kind, value, violation, h, hviolation, rfl⟩

theorem validate_outcome (settings : ValidationSettings) (contentType query : Option String)
    (body : Bytes) :
    Outcome settings contentType query body (validate settings contentType query body) := by
  by_cases hsize : body.length ≤ settings.maxBytes
  · by_cases hbody : body = []
    · subst hbody
      exact validate_outcome_of_empty
    have hbefore : PassesBefore settings contentType query body .contentType :=
      passesBefore_size.step hsize .contentType rfl
    cases hkind : contentType.bind BodyKind.ofContentType? with
    | none =>
        refine .inr ⟨_, .contentType, validate_of_unparsed hsize (parsed_of_unnamed hbody hkind),
          ⟨?_, hbefore⟩, rfl⟩
        rintro (hempty | ⟨kind, hsome⟩)
        · exact hbody hempty
        · exact absurd (hkind.symm.trans hsome) (by simp)
    | some kind =>
        cases hread : readBody kind body with
        | ok value => exact validate_outcome_of_holds hsize ⟨hbody, hkind, hread⟩
        | error failure =>
            refine .inr ⟨_, .grammar,
              validate_of_unparsed hsize (parsed_of_malformed hbody hkind hread), ⟨?_, ?_⟩,
              readBody_error hread⟩
            · intro hgrammar
              obtain ⟨value, hvalue⟩ := hgrammar kind hbody hkind
              exact absurd (hread.symm.trans hvalue) (by simp)
            · exact hbefore.step (.inr ⟨kind, hkind⟩) .grammar rfl
  · exact .inr ⟨_, .size, validate_of_large (Nat.lt_of_not_le hsize), ⟨hsize, passesBefore_size⟩,
      rfl⟩

theorem Reports.ne_unclassified {check : Check} {code : String}
    (h : Reports settings contentType body check code) : code ≠ "SYS_001" := by
  rcases check with _ | _ | _ | _ | (_ | _)
  · exact h ▸ by decide
  · exact h ▸ by decide
  · exact h ▸ by decide
  · obtain ⟨_, _, violation, -, -, rfl⟩ := h
    cases violation <;> simp [Violation.code]
  · exact h ▸ by decide
  · exact h ▸ by decide

theorem exists_ok_iff :
    (∃ validated, validate settings contentType query body = .ok validated) ↔
      ∀ check, Passes settings contentType query body check := by
  rcases validate_outcome settings contentType query body with
    ⟨validated, hok, hpasses⟩ | ⟨r, check, herror, hfails, -⟩
  · exact ⟨fun _ => hpasses, fun _ => ⟨validated, hok⟩⟩
  · constructor
    · rintro ⟨validated, hok⟩
      exact absurd (herror.symm.trans hok) (by simp)
    · exact fun hpasses => absurd (hpasses check) hfails.1

theorem exists_error_iff (code : String) :
    (∃ r, validate settings contentType query body = .error r ∧ r.failure.code = code) ↔
      ∃ check, FailsFirst settings contentType query body check ∧
        Reports settings contentType body check code := by
  rcases validate_outcome settings contentType query body with
    ⟨validated, hok, hpasses⟩ | ⟨r, check, herror, hfails, hreports⟩
  · constructor
    · rintro ⟨r, herror, -⟩
      exact absurd (herror.symm.trans hok) (by simp)
    · rintro ⟨check, hfails, -⟩
      exact absurd (hpasses check) hfails.1
  · constructor
    · rintro ⟨other, hother, rfl⟩
      cases herror.symm.trans hother
      exact ⟨check, hfails, hreports⟩
    · rintro ⟨other, hother, hcode⟩
      cases hfails.unique hother
      exact ⟨r, herror, hreports.unique hcode⟩

-- A request is accepted exactly if every check passes; otherwise the first check that fails
-- tells its code. No request fails because what was read cannot be written again.
theorem validate_exact (settings : ValidationSettings) (contentType query : Option String)
    (body : Bytes) :
    ((∃ validated, validate settings contentType query body = .ok validated) ↔
      ∀ check, Passes settings contentType query body check) ∧
    (∀ code, (∃ r, validate settings contentType query body = .error r ∧ r.failure.code = code) ↔
      ∃ check, FailsFirst settings contentType query body check ∧
        Reports settings contentType body check code) ∧
    ¬∃ r, validate settings contentType query body = .error r ∧ r.failure.code = "SYS_001" := by
  refine ⟨exists_ok_iff, exists_error_iff, fun h => ?_⟩
  obtain ⟨check, -, hreports⟩ := (exists_error_iff "SYS_001").mp h
  exact hreports.ne_unclassified rfl

end RequestGuard.Validation
