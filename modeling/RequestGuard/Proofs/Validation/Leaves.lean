import RequestGuard.Proofs.Json.RoundTrip
import RequestGuard.Proofs.Validation.HostileKeys
import RequestGuard.Proofs.Validation.Paths

namespace RequestGuard

variable {field message : String} {fields : List (String × String)} {pair : String × String}

-- A map of fields

theorem mem_insertField (h : pair ∈ insertField field message fields) :
    pair = (field, message) ∨ pair ∈ fields := by
  induction fields with
  | nil => exact .inl (List.mem_singleton.mp h)
  | cons head rest ih =>
      obtain ⟨n, m⟩ := head
      simp only [insertField] at h
      split_ifs at h with hlt heq
      · exact List.mem_cons.mp h
      · exact (List.mem_cons.mp h).imp id (List.mem_cons_of_mem _)
      · rcases List.mem_cons.mp h with hhead | hrest
        · exact .inr (hhead ▸ List.mem_cons_self)
        · exact (ih hrest).imp id (List.mem_cons_of_mem _)

theorem ascending_insertField (h : (fields.map Prod.fst).Pairwise (· < ·)) :
    ((insertField field message fields).map Prod.fst).Pairwise (· < ·) := by
  induction fields with
  | nil => exact List.pairwise_singleton _ _
  | cons head rest ih =>
      obtain ⟨n, m⟩ := head
      obtain ⟨hhead, hrest⟩ := List.pairwise_cons.mp h
      simp only [insertField]
      split_ifs with hlt heq
      · refine List.pairwise_cons.mpr ⟨fun other hother => ?_, h⟩
        rcases List.mem_cons.mp hother with rfl | hother
        · exact hlt
        · exact lt_trans hlt (hhead other hother)
      · exact List.pairwise_cons.mpr ⟨heq ▸ hhead, hrest⟩
      · have hgt : n < field := lt_of_le_of_ne (not_lt.mp hlt) (Ne.symm heq)
        refine List.pairwise_cons.mpr ⟨fun other hother => ?_, ih hrest⟩
        rcases mem_keys_insertField.mp hother with rfl | hother
        · exact hgt
        · exact hhead other hother

-- A map has a name once only, with a message that came with it.
theorem fieldMap_spec (pairs : List (String × String)) :
    ((fieldMap pairs).map Prod.fst).Nodup ∧ ∀ pair ∈ fieldMap pairs, pair ∈ pairs := by
  have hfold : ∀ fields : List (String × String), (fields.map Prod.fst).Pairwise (· < ·) →
      ((pairs.foldl (fun fields pair => insertField pair.1 pair.2 fields) fields).map
          Prod.fst).Pairwise (· < ·) ∧
        ∀ pair ∈ pairs.foldl (fun fields pair => insertField pair.1 pair.2 fields) fields,
          pair ∈ fields ∨ pair ∈ pairs := by
    induction pairs with
    | nil => exact fun fields h => ⟨h, fun pair hpair => .inl hpair⟩
    | cons head rest ih =>
        intro fields h
        obtain ⟨hascending, hmem⟩ := ih _ (ascending_insertField h)
        refine ⟨hascending, fun pair hpair => ?_⟩
        rcases hmem pair hpair with hinserted | hrest
        · rcases mem_insertField hinserted with rfl | hold
          · exact .inr List.mem_cons_self
          · exact .inl hold
        · exact .inr (List.mem_cons_of_mem _ hrest)
  obtain ⟨hascending, hmem⟩ := hfold [] .nil
  exact ⟨hascending.imp ne_of_lt, fun pair hpair => (hmem pair hpair).resolve_left List.not_mem_nil⟩

namespace Json

variable {bounds : ValidationSettings} {value : Json}

instance : Std.Asymm Step.Before :=
  ⟨fun _ _ => Step.Before.asymm⟩

instance : Std.Asymm Earlier :=
  inferInstanceAs (Std.Asymm (List.Lex Step.Before))

theorem PlainKeys.shorten (h : PlainKeys value) : PlainKeys (shortened bounds value) := by
  intro members hmembers member hmember
  obtain ⟨before, hbefore, rfl⟩ := isPart_object_shortened.mp hmembers
  obtain ⟨original, horiginal, rfl⟩ := List.mem_map.mp hmember
  exact h before hbefore original horiginal

-- The cuts leave every value where it is.
theorem contents_shortened (value : Json) : contents (shortened bounds value) =
    (contents value).map fun entry => (entry.1, shortened bounds entry.2) := by
  cases value with
  | array items =>
      rw [shortened, shortenedItems_eq_map, contents, contents, itemEntries, itemEntries,
        List.zipIdx_map, List.map_map, List.map_map]
      rfl
  | object members =>
      rw [shortened, shortenedMembers_eq_map, contents, contents, memberEntries, memberEntries,
        List.zipIdx_map, List.map_map, List.map_map]
      rfl
  | _ => rfl

end Json

namespace Validation

open Json (At Step Earlier Canonical PlainKeys shortText shortened longPlaces)

-- A spot with what is left of its text. Keys are not cut.
def Spot.shortened (bounds : ValidationSettings) : Spot → Spot
  | leaf place s => leaf place (shortText bounds s)
  | key parent i name => key parent i name

-- The texts of a value without its keys.
def leaves (value : Json) : List Spot :=
  (spots value).filter fun spot => !spot.isKey

def longLeaves (bounds : ValidationSettings) (value : Json) : List Spot :=
  (leaves value).filter fun leaf => bounds.maxCharacters < leaf.text.length

def faultyLeaves (detector : Detector) (value : Json) : List Spot :=
  (leaves value).filter (detector.detects ·.text)

variable {settings bounds : ValidationSettings} {contentType query : Option String} {body : Bytes}
  {kind : BodyKind} {value : Json} {validated : Validated} {r : Rejection} {detector : Detector}
  {leaf : Spot}

-- The spots after the cuts

namespace Spot

theorem path_shortened (bounds : ValidationSettings) (spot : Spot) :
    (spot.shortened bounds).path = spot.path := by
  cases spot <;> rfl

theorem shortened_below (bounds : ValidationSettings) (step : Step) (spot : Spot) :
    (spot.below step).shortened bounds = (spot.shortened bounds).below step := by
  cases spot <;> rfl

end Spot

theorem spotsBehind_shortened {entry : Step × Json}
    (h : spots (shortened bounds entry.2) = (spots entry.2).map (Spot.shortened bounds)) :
    spotsBehind (entry.1, shortened bounds entry.2) =
      (spotsBehind entry).map (Spot.shortened bounds) := by
  obtain ⟨step, child⟩ := entry
  have hkey : (keySpot step).map (Spot.shortened bounds) = keySpot step := by
    cases step <;> rfl
  rw [spotsBehind, spotsBehind, h, List.map_append, hkey, List.map_map, List.map_map]
  simp only [Function.comp_def, Spot.shortened_below]

theorem spots_shortened (bounds : ValidationSettings) (value : Json) :
    spots (shortened bounds value) = (spots value).map (Spot.shortened bounds) := by
  induction value using Json.induct_contents with
  | h value ih =>
      cases hleaf : value.isLeaf with
      | false =>
          have hshort : (shortened bounds value).isLeaf = false :=
            (Json.isLeaf_shortened value).trans hleaf
          rw [spots_container hleaf, spots_container hshort, Json.contents_shortened,
            List.flatMap_map, List.map_flatMap]
          exact List.flatMap_congr fun entry hentry => spotsBehind_shortened (ih entry hentry)
      | true =>
          cases value with
          | array items => contradiction
          | object members => contradiction
          | _ => rfl

-- The leaves

theorem mem_leaves : leaf ∈ leaves value ↔
    ∃ place s, leaf = .leaf place s ∧ At value place (.text s) := by
  rw [leaves, List.mem_filter, mem_spots]
  constructor
  · rintro ⟨hof, hkey⟩
    cases leaf with
    | leaf place s => exact ⟨place, s, rfl, hof⟩
    | key parent i name => contradiction
  · rintro ⟨place, s, rfl, hof⟩
    exact ⟨hof, rfl⟩

theorem pairwise_leaves (h : Canonical value) :
    (leaves value).Pairwise fun one two => Earlier one.place two.place := by
  refine ((pairwise_spots h).filter _).imp_of_mem fun {one two} hone _ hbefore => ?_
  obtain ⟨place, s, rfl, -⟩ := mem_leaves.mp hone
  rcases hbefore with hearlier | ⟨-, hkey, -⟩
  · exact hearlier
  · contradiction

theorem nodup_paths (hcanonical : Canonical value) (hplain : PlainKeys value) :
    ((leaves value).map Spot.path).Nodup := by
  refine List.pairwise_map.mpr ((pairwise_leaves hcanonical).imp_of_mem ?_)
  intro one two hone htwo hearlier hpath
  obtain ⟨place, s, rfl, hpart⟩ := mem_leaves.mp hone
  obtain ⟨another, t, rfl, hpiece⟩ := mem_leaves.mp htwo
  obtain rfl : place = another :=
    Json.place_eq_of_path hcanonical hplain hpart rfl hpiece rfl hpath
  exact Std.Asymm.asymm _ _ hearlier hearlier

theorem nodup_paths_filter (hcanonical : Canonical value) (hplain : PlainKeys value)
    (p : Spot → Bool) : (((leaves value).filter p).map Spot.path).Nodup :=
  (nodup_paths hcanonical hplain).sublist (List.filter_sublist.map Spot.path)

-- What a walk that ends tells to be cut

theorem longPlaces_eq (hcanonical : Canonical value) :
    longPlaces bounds value = (longLeaves bounds value).map Spot.place := by
  have hordered : ((longLeaves bounds value).map Spot.place).Pairwise Earlier :=
    List.pairwise_map.mpr ((pairwise_leaves hcanonical).filter _)
  refine (Json.pairwise_longPlaces hcanonical).eq_of_mem_iff hordered fun place => ?_
  rw [Json.mem_longPlaces, List.mem_map]
  simp only [longLeaves, List.mem_filter, decide_eq_true_eq, mem_leaves]
  constructor
  · rintro ⟨s, hpart, hlong⟩
    exact ⟨.leaf place s, ⟨⟨place, s, rfl, hpart⟩, hlong⟩, rfl⟩
  · rintro ⟨-, ⟨⟨place, s, rfl, hpart⟩, hlong⟩, rfl⟩
    exact ⟨s, hpart, hlong⟩

theorem cut_eq (hcanonical : Canonical value) (h : (value.enforce bounds).violation = none) :
    (value.enforce bounds).cut = (longLeaves bounds value).map Spot.path := by
  have hcut := Json.bound_cut h
  rw [longPlaces_eq hcanonical, List.map_map] at hcut
  refine hcut.trans (List.map_congr_left fun leaf hleaf => ?_)
  obtain ⟨place, s, rfl, -⟩ := mem_leaves.mp (List.mem_filter.mp hleaf).1
  rfl

theorem texts_of_unbroken (h : (value.enforce bounds).violation = none) :
    texts "" (value.enforce bounds).value =
      (spots value).map fun spot => (spot.path, (spot.shortened bounds).text) := by
  rw [Json.enforce_value h, texts_eq, spots_shortened, List.map_map]
  refine List.map_congr_left fun spot _ => ?_
  exact congrArg (·, (spot.shortened bounds).text) (Spot.path_shortened bounds spot)

-- The walk that holds a value to the bounds tells a leaf by the path under which the walk through
-- what it leaves collects that leaf.
structure Agree (bounds : ValidationSettings) (value : Json) : Prop where
  collected : (value.enforce bounds).violation = none → texts "" (value.enforce bounds).value =
    (spots value).map fun spot => (spot.path, (spot.shortened bounds).text)
  cut : (value.enforce bounds).violation = none →
    (value.enforce bounds).cut = (longLeaves bounds value).map Spot.path
  refused : ∀ path length limit,
    (value.enforce bounds).violation = some (.tooLongText path length limit) →
      ∃ leaf ∈ leaves value, leaf.path = path ∧ leaf.text.length = length

theorem agree (hcanonical : Canonical value) (bounds : ValidationSettings) :
    Agree bounds value := by
  refine ⟨texts_of_unbroken, cut_eq hcanonical, fun path length limit h => ?_⟩
  obtain ⟨place, part, hpart, hbreaks, -⟩ := Json.bound_stops hcanonical h
  cases hbreaks with
  | tooLongText huncut hlong => exact ⟨_, mem_leaves.mpr ⟨place, _, rfl, hpart⟩, rfl, rfl⟩

-- What is told of a request

theorem cutFields_of_validate (hvalue : Holds contentType body kind value)
    (h : validate settings contentType query body = .ok validated) :
    validated.cutFields = (longLeaves settings value).map Spot.path := by
  have hadmits := admits_of_validate hvalue h
  rw [← cut_eq (canonical_readBody hvalue.2.2) hadmits.unbroken]
  rcases accepted_eq_ok hadmits.accepted with ⟨rfl, -, hcut⟩ | ⟨written, -, rfl⟩
  · exact hcut.symm
  · rfl

theorem fields_of_breach (hvalue : Holds contentType body kind value)
    (hsize : body.length ≤ settings.maxBytes) {v : Violation}
    (h : (value.enforce settings).violation = some v) :
    ∃ r, validate settings contentType query body = .error r ∧
      r.failure.fields = [(v.path, v.message)] := by
  rw [Json.enforce_violation] at h
  exact ⟨_, validate_of_breach hsize hvalue.parsed (bounded_of_breach h), rfl⟩

-- The leaves that a detector finds fault with have an entry each among the fields of a rejection,
-- and where neither a key nor a parameter is at fault there is no other entry.
structure EntryForEach (detector : Detector) (query : Option String) (value : Json)
    (r : Rejection) : Prop where
  once : (r.failure.fields.map Prod.fst).Nodup
  apart : ((faultyLeaves detector value).map Spot.path).Nodup
  told : ∀ leaf ∈ faultyLeaves detector value,
    (leaf.path, detector.message) ∈ r.failure.fields
  exact : (∀ spot ∈ spots value, spot.isKey = true → detector.detects spot.text = false) →
    suspectParameters detector query = [] →
    (r.failure.fields.map Prod.fst).Perm ((faultyLeaves detector value).map Spot.path)

theorem mem_fields_rejection {path : String} {paths : List String} (h : path ∈ paths) :
    (path, detector.message) ∈ (rejection detector paths).failure.fields := by
  have hname := ((names_rejection detector paths).fields path).mpr h
  obtain ⟨⟨name, message⟩, hentry, rfl⟩ := List.mem_map.mp hname
  obtain ⟨-, hfrom⟩ := fieldMap_spec (paths.map fun path => (path, detector.message))
  obtain ⟨other, -, heq⟩ := List.mem_map.mp (hfrom _ hentry)
  cases heq
  exact hentry

theorem filter_spots_of_harmless_keys
    (h : ∀ spot ∈ spots value, spot.isKey = true → detector.detects spot.text = false) :
    (spots value).filter (detector.detects ·.text) = faultyLeaves detector value := by
  rw [faultyLeaves, leaves, List.filter_filter]
  refine List.filter_congr fun spot hspot => ?_
  cases hkey : spot.isKey with
  | true => simp [h spot hspot hkey]
  | false => simp

theorem entryForEach_of_rejected (hvalue : Holds contentType body kind value)
    (hplain : PlainKeys value) (h : validate settings contentType query body = .error r)
    (hcode : r.failure.code = detector.code) :
    EntryForEach detector query (shortened settings value) r := by
  obtain ⟨found, hfound, rfl, -⟩ := attack_of_rejected h hcode
  obtain rfl := hfound.unique (.body hvalue)
  have hcanonical : Canonical (shortened settings value) :=
    (canonical_readBody hvalue.2.2).shorten
  have hapart := nodup_paths_filter hcanonical hplain.shorten (detector.detects ·.text)
  have hhits := hits_eq detector (spots (shortened settings value)) query
  have hcollected : texts "" (shortened settings value) =
    (spots (shortened settings value)).map fun spot => (spot.path, spot.text) := texts_eq _ _
  rw [← hcollected] at hhits
  rw [hhits]
  refine ⟨(fieldMap_spec _).1, hapart, fun leaf hleaf => mem_fields_rejection ?_,
    fun hkeys hparameters => ?_⟩
  · obtain ⟨hmem, hfault⟩ := List.mem_filter.mp hleaf
    have hspot : leaf ∈ spots (shortened settings value) := (List.mem_filter.mp hmem).1
    exact List.mem_append_left _ (List.mem_map_of_mem (List.mem_filter.mpr ⟨hspot, hfault⟩))
  · rw [filter_spots_of_harmless_keys hkeys, hparameters, List.append_nil]
    refine (List.perm_ext_iff_of_nodup (fieldMap_spec _).1 hapart).mpr fun name => ?_
    exact (names_rejection detector _).fields name

-- Where no key can be mistaken for a piece of a path, each leaf has a path of its own, and it is
-- told by that path wherever it is told of. So no path is told twice to be cut, and each leaf that
-- is found fault with has its own entry.
theorem paths_unambiguous (hcanonical : Canonical value) (hplain : PlainKeys value) :
    (∀ place s, Spot.leaf place s ∈ leaves value ↔ At value place (.text s)) ∧
    ((leaves value).map Spot.path).Nodup ∧
    (∀ bounds, Agree bounds value ∧ ((longLeaves bounds value).map Spot.path).Nodup) ∧
    ∀ settings contentType query body kind, Holds contentType body kind value →
      (∀ validated, validate settings contentType query body = .ok validated →
        validated.cutFields = (longLeaves settings value).map Spot.path ∧
          validated.cutFields.Nodup) ∧
      (∀ r detector, validate settings contentType query body = .error r →
        r.failure.code = Detector.code detector →
          EntryForEach detector query (shortened settings value) r) ∧
      (body.length ≤ settings.maxBytes → ∀ v, (value.enforce settings).violation = some v →
        ∃ r, validate settings contentType query body = .error r ∧
          r.failure.fields = [(v.path, v.message)]) := by
  have hcuts : ∀ bounds, ((longLeaves bounds value).map Spot.path).Nodup :=
    fun bounds => nodup_paths_filter hcanonical hplain _
  refine ⟨fun place s => ?_, nodup_paths hcanonical hplain,
    fun bounds => ⟨agree hcanonical bounds, hcuts bounds⟩,
    fun settings contentType query body kind hvalue => ⟨fun validated h => ?_,
      fun r detector h hcode => entryForEach_of_rejected hvalue hplain h hcode,
      fun hsize v h => fields_of_breach hvalue hsize h⟩⟩
  · rw [mem_leaves]
    constructor
    · rintro ⟨_, _, heq, hpart⟩
      cases heq
      exact hpart
    · exact fun hpart => ⟨place, s, rfl, hpart⟩
  · have hcut := cutFields_of_validate hvalue h
    exact ⟨hcut, hcut ▸ hcuts settings⟩

-- A script in a list and one in an object in that list, under the name that a whole body has.
theorem paths_unambiguous_of_scripts :
    let body := bytesOf "[\"<script>\",\x7b\"body\":\"<script>\"\x7d,\"x\"]"
    let value := Json.array [.text "<script>", .object [("body", .text "<script>")], .text "x"]
    Canonical value ∧ PlainKeys value ∧ Holds (some "application/json") body .json value ∧
      (leaves value).map Spot.path = ["body[0]", "body[1].body", "body[2]"] ∧
      ((leaves value).map Spot.path).Nodup ∧
      ∃ r, validate {} (some "application/json") none body = .error r ∧
        r.failure.code = Detector.script.code ∧
        EntryForEach .script none (shortened {} value) r ∧
        r.failure.fields.map Prod.fst = ["body[0]", "body[1].body"] := by
  intro body value
  have hcanonical : Canonical value := by
    refine .array (List.forall_mem_cons.mpr ⟨.text _, List.forall_mem_cons.mpr ⟨?_,
      List.forall_mem_singleton.mpr (.text _)⟩⟩)
    exact .object (List.pairwise_singleton _ _) (List.forall_mem_singleton.mpr (.text _))
  have hkey : Json.PlainKey "body" := ⟨by decide, by decide, by decide⟩
  have hplain : PlainKeys value := by
    refine Json.plainKeys_array.mpr (List.forall_mem_cons.mpr ⟨Json.plainKeys_leaf rfl,
      List.forall_mem_cons.mpr ⟨?_, List.forall_mem_singleton.mpr (Json.plainKeys_leaf rfl)⟩⟩)
    exact Json.plainKeys_object.mpr (List.forall_mem_singleton.mpr ⟨hkey, Json.plainKeys_leaf rfl⟩)
  have hnumbers : Json.WholeNumbers value := by
    intro n hn
    obtain ⟨item, hitem, hn⟩ := (Json.isPart_array.mp hn).resolve_left (by simp)
    simp only [List.mem_cons, List.not_mem_nil, or_false] at hitem
    rcases hitem with rfl | rfl | rfl
    · exact absurd ((Json.isPart_leaf rfl).mp hn) (by simp)
    · obtain ⟨member, hmember, hn⟩ := (Json.isPart_object.mp hn).resolve_left (by simp)
      rw [List.mem_singleton.mp hmember] at hn
      exact absurd ((Json.isPart_leaf rfl).mp hn) (by simp)
    · exact absurd ((Json.isPart_leaf rfl).mp hn) (by simp)
  have hnests : Json.Nests Json.nestingLimit value := by
    refine Json.nests_array.mpr ⟨_, rfl, List.forall_mem_cons.mpr ⟨Json.nests_leaf rfl,
      List.forall_mem_cons.mpr ⟨?_, List.forall_mem_singleton.mpr (Json.nests_leaf rfl)⟩⟩⟩
    exact Json.nests_object.mpr ⟨_, rfl, List.forall_mem_singleton.mpr (Json.nests_leaf rfl)⟩
  have hwritten : bytesOf value.written = body := by decide +kernel
  have hread : readBody .json body = .ok value := by
    simp only [readBody, ← hwritten, Json.parse_written hcanonical hnumbers hnests]
    rfl
  have hvalue : Holds (some "application/json") body .json value :=
    ⟨by decide +kernel, by decide +kernel, hread⟩
  have hrun : (rejected? (validate {} (some "application/json") none body)).map
      (fun r => (r.failure.code, r.failure.fields.map Prod.fst)) =
        some (Detector.script.code, ["body[0]", "body[1].body"]) := by
    decide +kernel
  obtain ⟨r, herror, hr⟩ := exists_error_of_rejected? hrun
  obtain ⟨hcode, hfields⟩ := Prod.mk.inj hr
  obtain ⟨-, hnodup, -, hrequest⟩ := paths_unambiguous hcanonical hplain
  obtain ⟨-, hrejected, -⟩ := hrequest {} (some "application/json") none body .json hvalue
  exact ⟨hcanonical, hplain, hvalue, by decide +kernel, hnodup, r, herror, hcode,
    hrejected r .script herror hcode, hfields⟩

end Validation

end RequestGuard
