import RequestGuard.Proofs.Validation.Outcome
import RequestGuard.Proofs.Validation.Spots

namespace RequestGuard

variable {name field message : String} {fields pairs : List (String × String)}

theorem mem_keys_insertField : name ∈ (insertField field message fields).map Prod.fst ↔
    name = field ∨ name ∈ fields.map Prod.fst := by
  induction fields with
  | nil => simp [insertField]
  | cons head rest ih =>
      obtain ⟨n, m⟩ := head
      simp only [insertField]
      split_ifs with hlt heq
      · simp
      · simp [heq]
      · rw [List.map_cons, List.mem_cons, ih, List.map_cons, List.mem_cons, or_left_comm]

-- The fields of a map are those that it is made from.
theorem mem_keys_fieldMap : name ∈ (fieldMap pairs).map Prod.fst ↔ name ∈ pairs.map Prod.fst := by
  have hfold : ∀ fields : List (String × String),
      name ∈ (pairs.foldl (fun fields pair => insertField pair.1 pair.2 fields) fields).map
          Prod.fst ↔
        name ∈ fields.map Prod.fst ∨ name ∈ pairs.map Prod.fst := by
    induction pairs with
    | nil => simp
    | cons head rest ih =>
        intro fields
        rw [List.foldl_cons, ih, mem_keys_insertField, List.map_cons, List.mem_cons, or_assoc,
          or_left_comm]
  exact (hfold []).trans (by simp)

namespace Validation

open Json (shortened)

def parameters (query : Option String) : List (String × String) :=
  (query.map fun q => Form.read (bytesOf q)).getD []

-- The paths of the parameters of a query that a detector finds fault with, in their order.
def suspectParameters (detector : Detector) (query : Option String) : List String :=
  ((parameters query).filter (detector.detects ·.2)).map (Path.query ·.1)

-- A text of the body, as long as it is let be, or a key in it.
def Stands (settings : ValidationSettings) (contentType : Option String) (body : Bytes)
    (spot : Spot) : Prop :=
  ∃ kind value, Holds contentType body kind value ∧ spot.IsOf (shortened settings value)

-- The spots of the body at which a detector finds fault, each once and in order.
structure Finds (settings : ValidationSettings) (contentType : Option String) (body : Bytes)
    (detector : Detector) (found : List Spot) : Prop where
  ordered : found.Pairwise Spot.Before
  exact : ∀ spot, spot ∈ found ↔
    Stands settings contentType body spot ∧ detector.detects spot.text = true

-- The same paths in the events, among the fields and in the text for the operators.
structure Names (detector : Detector) (paths : List String) (r : Rejection) : Prop where
  events : r.events = paths.map detector.event
  fields : ∀ name, name ∈ r.failure.fields.map Prod.fst ↔ name ∈ paths
  internal : r.failure.internal = detector.title ++ " pattern in " ++ joined ", " paths

def rejected? : Except Rejection Validated → Option Rejection
  | .ok _ => none
  | .error r => some r

def raised (result : Except Rejection Validated) : List Event :=
  ((rejected? result).map (·.events)).getD []

variable {settings : ValidationSettings} {contentType query : Option String} {body : Bytes}
  {r : Rejection} {detector other : Detector} {found : List (String × String)}

theorem bind_eq_error {x : Except ε α} {f : α → Except ε β} {e : ε} (h : x.bind f = .error e) :
    x = .error e ∨ ∃ a, x = .ok a ∧ f a = .error e := by
  cases x with
  | error other => exact .inl (congrArg Except.error (Except.error.inj h))
  | ok a => exact .inr ⟨a, rfl, h⟩

theorem exists_error_of_rejected? {result : Except Rejection Validated} {f : Rejection → β} {b : β}
    (h : (rejected? result).map f = some b) : ∃ r, result = .error r ∧ f r = b := by
  cases result with
  | ok validated => contradiction
  | error r => exact ⟨r, rfl, Option.some.inj h⟩

theorem Detector.code_injective (h : detector.code = other.code) : detector = other := by
  cases detector <;> cases other <;> first | rfl | exact absurd h (by decide)

theorem names_rejection (detector : Detector) (paths : List String) :
    Names detector paths (rejection detector paths) := by
  refine ⟨rfl, fun name => mem_keys_fieldMap.trans ?_, rfl⟩
  rw [List.map_map]
  exact iff_of_eq (congrArg _ (List.map_id paths))

theorem detect_eq_error (h : detect settings found detector = .error r) :
    detector.enabled settings = true ∧ hits detector found ≠ [] ∧
      r = rejection detector (hits detector found) := by
  unfold detect at h
  split at h
  · next henabled =>
      split at h
      · contradiction
      · next paths hpaths =>
          refine ⟨henabled, hpaths, ?_⟩
          exact (Except.error.inj h).symm
  · contradiction

theorem detect_eq_ok (h : detect settings found detector = .ok ()) :
    Clear settings found detector := by
  by_contra hnot
  obtain ⟨paths, herror⟩ := detect_of_not_clear hnot
  exact absurd (herror.symm.trans h) (by simp)

-- Queries are looked for only where no script has been found.
theorem detectAll_eq_error (h : detectAll settings found = .error r) :
    ∃ detector, detect settings found detector = .error r ∧
      (detector = .query → Clear settings found .script) := by
  unfold detectAll at h
  cases hscript : detect settings found .script with
  | error other =>
      rw [hscript] at h
      cases h
      exact ⟨.script, hscript, by simp⟩
  | ok _ =>
      rw [hscript] at h
      exact ⟨.query, h, fun _ => detect_eq_ok hscript⟩

theorem hits_eq (detector : Detector) (listed : List Spot) (query : Option String) :
    hits detector (listed.map (fun spot => (spot.path, spot.text)) ++ queryTexts query) =
      (listed.filter (detector.detects ·.text)).map Spot.path ++
        suspectParameters detector query := by
  have hparameters : queryTexts query =
    (parameters query).map fun pair => (Path.query pair.1, pair.2) := rfl
  rw [hparameters]
  simp only [hits, suspectParameters, List.filter_append, List.map_append, List.filter_map,
    List.map_map]
  rfl

theorem bounded_eq_error {value : Json} (h : bounded settings value = .error r) :
    ∃ violation : Violation,
      r = refuse (.invalidField violation.code violation.path violation.message) := by
  simp only [bounded] at h
  split at h
  · next violation _ => exact ⟨violation, (Except.error.inj h).symm⟩
  · contradiction

-- A rejection for another reason than an attack.
def Plain (r : Rejection) : Prop :=
  r.events = [] ∧ ∀ detector : Detector, r.failure.code ≠ detector.code

theorem plain_of_code {failure : Failure} (code : String) (hcode : failure.code = code)
    (hscript : code ≠ "VAL_XSS") (hquery : code ≠ "VAL_SQLI") : Plain (refuse failure) := by
  refine ⟨rfl, fun detector => ?_⟩
  cases detector with
  | script => exact hcode.trans_ne hscript
  | query => exact hcode.trans_ne hquery

theorem plain_violation (violation : Violation) :
    Plain (refuse (.invalidField violation.code violation.path violation.message)) := by
  cases violation with
  | tooDeep => exact plain_of_code "VAL_DEPTH" rfl (by decide) (by decide)
  | tooManyItems => exact plain_of_code "VAL_ARRAY_LENGTH" rfl (by decide) (by decide)
  | tooLongText => exact plain_of_code "VAL_STRING_LENGTH" rfl (by decide) (by decide)

theorem searched_of_empty (hsize : ([] : Bytes).length ≤ settings.maxBytes)
    (h : validate settings contentType query [] = .error r) :
    detectAll settings (queryTexts query) = .error r := by
  rw [validate_of_empty hsize rfl] at h
  rcases bind_eq_error h with hdetect | ⟨-, -, hok⟩
  · exact hdetect
  · contradiction

theorem plain_or_searched_of_holds (hsize : body.length ≤ settings.maxBytes) {kind : BodyKind}
    {value : Json} (hvalue : Holds contentType body kind value)
    (h : validate settings contentType query body = .error r) :
    Plain r ∨ detectAll settings (texts "" (shortened settings value) ++ queryTexts query) =
      .error r := by
  cases hbounded : bounded settings value with
  | error other =>
      rw [validate_of_breach hsize hvalue.parsed hbounded] at h
      obtain rfl : other = r := Except.error.inj h
      obtain ⟨violation, rfl⟩ := bounded_eq_error hbounded
      exact .inl (plain_violation violation)
  | ok pair =>
      obtain ⟨result, cut⟩ := pair
      rw [validate_of_bounded hsize hvalue.parsed hbounded] at h
      obtain ⟨-, rfl, -⟩ := bounded_eq_ok hbounded
      rcases bind_eq_error h with hdetect | ⟨-, -, haccepted⟩
      · exact .inr hdetect
      · -- what has been read can be written again
        obtain ⟨validated, hok⟩ :=
          accepted_of_shaped (shaped_readBody hvalue.2.2).shorten settings cut
        exact absurd (hok.symm.trans haccepted) (by simp)

-- What the detectors are run on: the texts of the body if there is one, and those of the query.
inductive Searched (settings : ValidationSettings) (contentType query : Option String) :
    Bytes → List (String × String) → Prop where
  | query : Searched settings contentType query [] (queryTexts query)
  | body {body : Bytes} {kind : BodyKind} {value : Json} (h : Holds contentType body kind value) :
      Searched settings contentType query body
        (texts "" (shortened settings value) ++ queryTexts query)

theorem plain_or_searched (h : validate settings contentType query body = .error r) :
    Plain r ∨ ∃ found, Searched settings contentType query body found ∧
      detectAll settings found = .error r := by
  by_cases hsize : body.length ≤ settings.maxBytes
  swap
  · rw [validate_of_large (Nat.lt_of_not_le hsize)] at h
    cases h
    exact .inl (plain_of_code "VAL_SIZE" rfl (by decide) (by decide))
  by_cases hbody : body = []
  · subst hbody
    exact .inr ⟨_, .query, searched_of_empty hsize h⟩
  cases hkind : contentType.bind BodyKind.ofContentType? with
  | none =>
      rw [validate_of_unparsed hsize (parsed_of_unnamed hbody hkind)] at h
      cases h
      exact .inl (plain_of_code "VAL_CONTENT_TYPE" rfl (by decide) (by decide))
  | some kind =>
      cases hread : readBody kind body with
      | error failure =>
          rw [validate_of_unparsed hsize (parsed_of_malformed hbody hkind hread)] at h
          cases h
          exact .inl (plain_of_code _ (readBody_error hread) (by decide) (by decide))
      | ok value =>
          have hvalue : Holds contentType body kind value := ⟨hbody, hkind, hread⟩
          exact (plain_or_searched_of_holds hsize hvalue h).imp_right fun hdetect =>
            ⟨_, .body hvalue, hdetect⟩

-- It is what stands at the spots of the body, in their order, and then the parameters.
theorem Searched.exists_listed (h : Searched settings contentType query body found) :
    ∃ listed : List Spot, listed.Pairwise Spot.Before ∧
      (∀ spot, spot ∈ listed ↔ Stands settings contentType body spot) ∧
      found = listed.map (fun spot => (spot.path, spot.text)) ++ queryTexts query := by
  cases h with
  | query => exact ⟨[], .nil, by simp [Stands, Holds], rfl⟩
  | @body _ kind value hvalue =>
      have hcanonical : Json.Canonical (shortened settings value) :=
        (canonical_readBody hvalue.2.2).shorten
      refine ⟨spots (shortened settings value), pairwise_spots hcanonical, fun spot => ?_, ?_⟩
      · rw [mem_spots]
        constructor
        · exact fun hspot => ⟨kind, value, hvalue, hspot⟩
        · rintro ⟨other, also, halso, hspot⟩
          exact hvalue.unique halso ▸ hspot
      · rw [texts_eq]
        rfl

-- A request that is turned away for an attack is so by the first detector that finds fault.
theorem attack_of_rejected (h : validate settings contentType query body = .error r)
    (hcode : r.failure.code = detector.code) :
    ∃ found, Searched settings contentType query body found ∧
      r = rejection detector (hits detector found) ∧
      (detector = .query → Clear settings found .script) := by
  rcases plain_or_searched h with ⟨-, hplain⟩ | ⟨found, hfound, hdetect⟩
  · exact absurd hcode (hplain detector)
  · obtain ⟨other, hother, hclear⟩ := detectAll_eq_error hdetect
    obtain ⟨-, -, rfl⟩ := detect_eq_error hother
    obtain rfl : other = detector := Detector.code_injective hcode
    exact ⟨found, hfound, rfl, hclear⟩

-- The texts that the detector finds fault with are told by their paths, one after the other: those
-- of the body and then those of the query.
theorem finds_of_searched (h : Searched settings contentType query body found)
    (detector : Detector) :
    ∃ faults : List Spot, Finds settings contentType body detector faults ∧
      hits detector found = faults.map Spot.path ++ suspectParameters detector query := by
  obtain ⟨listed, hordered, hexact, rfl⟩ := h.exists_listed
  refine ⟨listed.filter (detector.detects ·.text), ⟨hordered.filter _, fun spot => ?_⟩,
    hits_eq detector listed query⟩
  rw [List.mem_filter, hexact]

theorem unscripted_of_clear (h : Searched settings contentType query body found)
    (hclear : Clear settings found .script) :
    settings.refuseScript = false ∨
      (∀ spot, Stands settings contentType body spot → hasScript spot.text = false) ∧
        ∀ pair ∈ parameters query, hasScript pair.2 = false := by
  cases hscript : settings.refuseScript with
  | false => exact .inl rfl
  | true =>
      obtain ⟨listed, -, hexact, rfl⟩ := h.exists_listed
      refine .inr ⟨fun spot hspot => ?_, fun pair hpair => ?_⟩
      · refine hclear hscript spot.text ⟨spot.path, List.mem_append_left _ ?_⟩
        exact List.mem_map.mpr ⟨spot, (hexact spot).mpr hspot, rfl⟩
      · refine hclear hscript pair.2 ⟨Path.query pair.1, List.mem_append_right _ ?_⟩
        exact List.mem_map.mpr ⟨pair, hpair, rfl⟩

-- A rejection for an attack tells the path of every text that the detector finds fault with, each
-- once and in order, and of no other; queries are told of only where no script has been found. Any
-- other outcome tells of no attack.
theorem reports_exact (settings : ValidationSettings) (contentType query : Option String)
    (body : Bytes) :
    (∀ r detector, validate settings contentType query body = .error r →
      r.failure.code = detector.code →
      ∃ faults, Finds settings contentType body detector faults ∧
        Names detector (faults.map Spot.path ++ suspectParameters detector query) r ∧
        (detector = .query → settings.refuseScript = false ∨
          (∀ spot, Stands settings contentType body spot → hasScript spot.text = false) ∧
            ∀ pair ∈ parameters query, hasScript pair.2 = false)) ∧
    ((∀ r detector, validate settings contentType query body = .error r →
      r.failure.code ≠ Detector.code detector) →
        raised (validate settings contentType query body) = []) := by
  refine ⟨fun r detector h hcode => ?_, fun hother => ?_⟩
  · obtain ⟨found, hfound, rfl, hclear⟩ := attack_of_rejected h hcode
    obtain ⟨faults, hfaults, hhits⟩ := finds_of_searched hfound detector
    refine ⟨faults, hfaults, hhits ▸ names_rejection detector _, fun hquery => ?_⟩
    exact unscripted_of_clear hfound (hclear hquery)
  · cases h : validate settings contentType query body with
    | ok validated => rfl
    | error r =>
        rcases plain_or_searched h with ⟨hevents, -⟩ | ⟨found, -, hdetect⟩
        · exact hevents
        · obtain ⟨detector, hdetector, -⟩ := detectAll_eq_error hdetect
          obtain ⟨-, -, rfl⟩ := detect_eq_error hdetector
          exact absurd rfl (hother _ detector h)

-- Scripts in a text of a list, in a key and in a parameter, each told by its path.
theorem reports_exact_of_scripts :
    ∃ r faults, validate {} (some "application/json") (some "q=<script>&r=1")
        (bytesOf "\x7b\"a\":[1,\"<script>\"],\"<script>\":2\x7d") = .error r ∧
      r.failure.code = Detector.script.code ∧
      Finds {} (some "application/json")
        (bytesOf "\x7b\"a\":[1,\"<script>\"],\"<script>\":2\x7d") .script faults ∧
      Names .script
        (faults.map Spot.path ++ suspectParameters .script (some "q=<script>&r=1")) r ∧
      r.events = [.scriptDetected "body#key", .scriptDetected "a[1]",
        .scriptDetected "query.q"] := by
  have hrun : (rejected? (validate {} (some "application/json") (some "q=<script>&r=1")
      (bytesOf "\x7b\"a\":[1,\"<script>\"],\"<script>\":2\x7d"))).map
        (fun r => (r.failure.code, r.events)) = some (Detector.script.code,
          [.scriptDetected "body#key", .scriptDetected "a[1]", .scriptDetected "query.q"]) := by
    decide +kernel
  obtain ⟨r, herror, hr⟩ := exists_error_of_rejected? hrun
  obtain ⟨hcode, hevents⟩ := Prod.mk.inj hr
  obtain ⟨faults, hfaults, hnames, -⟩ := (reports_exact _ _ _ _).1 r .script herror hcode
  exact ⟨r, faults, herror, hcode, hfaults, hnames, hevents⟩

end Validation

end RequestGuard
