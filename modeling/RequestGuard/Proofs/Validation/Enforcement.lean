import RequestGuard.Proofs.Json.Places
import RequestGuard.Proofs.Validation.Bounds

namespace RequestGuard.Json

variable (bounds : ValidationSettings)

def Step.pathFrom (path : String) : Step → String
  | item i => Path.index path i
  | member _ key => Path.key path key

-- The path of a place, from that of the value it lies in.
def pathFrom (path : String) (place : List Step) : String :=
  place.foldl Step.pathFrom path

def leading (n : Nat) (s : String) : String :=
  String.ofList (s.toList.take n)

-- How a part breaks a bound, with its path and the number of containers around it. The depth of
-- a list is looked at before its length.
inductive Breaks (path : String) (depth : Nat) : Json → Violation → Prop
  | tooDeep {value : Json} (hcontainer : value.isLeaf = false) (h : bounds.maxDepth < depth + 1) :
      Breaks path depth value (.tooDeep (Path.display path) bounds.maxDepth)
  | tooManyItems {items : List Json} (hdepth : depth + 1 ≤ bounds.maxDepth)
      (h : bounds.maxItems < items.length) : Breaks path depth (array items)
        (.tooManyItems (Path.display path) items.length bounds.maxItems)
  | tooLongText {s : String} (huncut : bounds.cutLongTexts = false)
      (h : bounds.maxCharacters < s.length) : Breaks path depth (text s)
        (.tooLongText (Path.display path) s.length bounds.maxCharacters)

-- Some values one after the other, up to the first violation.
def walk (path : String) (depth : Nat) : List (Step × Json) → Bounded (List Json)
  | [] => ⟨[], [], none⟩
  | (step, value) :: rest =>
    let first := bound bounds (step.pathFrom path) depth value
    if first.violation.isSome then
      ⟨first.value :: rest.map Prod.snd, first.cut, first.violation⟩
    else
      let more := walk path depth rest
      ⟨first.value :: more.value, first.cut ++ more.cut, more.violation⟩

def isLong : Json → Bool
  | text s => bounds.maxCharacters < s.length
  | _ => false

-- The places of the texts that are too long, as a walk comes to them.
def longPlaces (value : Json) : List (List Step) :=
  ((tour value).filter fun e => isLong bounds e.2).map Prod.fst

variable {bounds} {value part : Json} {entries : List (Step × Json)} {place : List Step}
  {path : String} {depth : Nat} {v : Violation}

-- The walk through a container

theorem walk_cons_none (step : Step) (rest : List (Step × Json))
    (h : (bound bounds (step.pathFrom path) depth value).violation = none) :
    walk bounds path depth ((step, value) :: rest) =
      ⟨(bound bounds (step.pathFrom path) depth value).value :: (walk bounds path depth rest).value,
        (bound bounds (step.pathFrom path) depth value).cut ++ (walk bounds path depth rest).cut,
        (walk bounds path depth rest).violation⟩ := by
  simp [walk, h]

theorem walk_cons_some (step : Step) (rest : List (Step × Json))
    (h : (bound bounds (step.pathFrom path) depth value).violation = some v) :
    walk bounds path depth ((step, value) :: rest) =
      ⟨(bound bounds (step.pathFrom path) depth value).value :: rest.map Prod.snd,
        (bound bounds (step.pathFrom path) depth value).cut, some v⟩ := by
  simp [walk, h]

theorem boundItems_eq_walk (path : String) (depth n : Nat) (items : List Json) :
    boundItems bounds path depth n items = walk bounds path depth (itemEntries n items) := by
  induction items generalizing n with
  | nil => rfl
  | cons item rest ih =>
      have hrest : (itemEntries (n + 1) rest).map Prod.snd = rest :=
        (map_itemEntries id (n + 1) rest).trans (List.map_id rest)
      rw [boundItems, itemEntries_cons, walk, ih, hrest]
      rfl

theorem boundMembers_eq_walk (path : String) (depth n : Nat) (members : List (String × Json)) :
    boundMembers bounds path depth members = (walk bounds path depth (memberEntries n members)).map
      (members.map Prod.fst).zip := by
  induction members generalizing n with
  | nil => rfl
  | cons member rest ih =>
      obtain ⟨key, value⟩ := member
      rw [boundMembers, memberEntries_cons, List.map_cons]
      cases hfirst : (bound bounds (Path.key path key) depth value).violation with
      | none =>
          rw [walk_cons_none (.member n key) _ hfirst, ih (n + 1)]
          simp only [Option.isSome_none, Bool.false_eq_true, if_false, Bounded.map,
            List.zip_cons_cons, Step.pathFrom]
      | some v =>
          have hrest : (rest.map Prod.fst).zip ((memberEntries (n + 1) rest).map Prod.snd) = rest :=
            (zip_memberEntries id (n + 1) rest).trans (List.map_id rest)
          rw [walk_cons_some (.member n key) _ hfirst]
          simp only [Option.isSome_some, if_true, Bounded.map, List.zip_cons_cons, hrest,
            Step.pathFrom]

theorem bound_eq_walk (hcontainer : value.isLeaf = false) (hfits : Fits bounds depth value) :
    bound bounds path depth value =
      (walk bounds path (depth + 1) (contents value)).map (refilled value) := by
  cases value with
  | array items =>
      rw [bound, if_neg (Nat.not_lt.mpr hfits.1), if_neg (Nat.not_lt.mpr hfits.2),
        boundItems_eq_walk]
      rfl
  | object members =>
      rw [bound, if_neg (Nat.not_lt.mpr hfits), boundMembers_eq_walk path (depth + 1) 0]
      rfl
  | _ => contradiction

theorem walk_ends (h : (walk bounds path depth entries).violation = none) :
    (∀ e ∈ entries, (bound bounds (e.1.pathFrom path) depth e.2).violation = none) ∧
      (walk bounds path depth entries).cut =
        entries.flatMap fun e => (bound bounds (e.1.pathFrom path) depth e.2).cut := by
  induction entries with
  | nil => exact ⟨List.forall_mem_nil _, rfl⟩
  | cons entry rest ih =>
      obtain ⟨step, value⟩ := entry
      cases hfirst : (bound bounds (step.pathFrom path) depth value).violation with
      | some w =>
          rw [walk_cons_some step rest hfirst] at h
          cases h
      | none =>
          rw [walk_cons_none step rest hfirst] at h ⊢
          obtain ⟨hrest, hcut⟩ := ih h
          exact ⟨List.forall_mem_cons.mpr ⟨hfirst, hrest⟩, by rw [hcut, List.flatMap_cons]⟩

theorem walk_stops (h : (walk bounds path depth entries).violation = some v) :
    ∃ before step child after, entries = before ++ (step, child) :: after ∧
      (∀ e ∈ before, (bound bounds (e.1.pathFrom path) depth e.2).violation = none) ∧
      (bound bounds (step.pathFrom path) depth child).violation = some v ∧
      (walk bounds path depth entries).value = before.map (fun e => shortened bounds e.2) ++
        (bound bounds (step.pathFrom path) depth child).value :: after.map Prod.snd := by
  induction entries with
  | nil => cases h
  | cons entry rest ih =>
      obtain ⟨step, value⟩ := entry
      cases hfirst : (bound bounds (step.pathFrom path) depth value).violation with
      | some w =>
          rw [walk_cons_some step rest hfirst] at h ⊢
          exact ⟨[], step, value, rest, rfl, List.forall_mem_nil _,
            hfirst.trans h, rfl⟩
      | none =>
          rw [walk_cons_none step rest hfirst] at h ⊢
          obtain ⟨before, stop, child, after, rfl, hbefore, hchild, hvalue⟩ := ih h
          refine ⟨(step, value) :: before, stop, child, after, rfl,
            List.forall_mem_cons.mpr ⟨hfirst, hbefore⟩, hchild, ?_⟩
          rw [hvalue, bound_value hfirst]
          rfl

-- What fits and what does not

theorem unbroken_iff : (bound bounds path depth value).violation = none ↔
    ∀ place part, At value place part → Fits bounds (depth + place.length) part := by
  rw [bound_violation, List.head?_eq_none_iff, breaches_eq_nil]
  constructor
  · exact fun h place part hpart => h _ part (occurs_iff_at.mpr ⟨place, rfl, hpart⟩)
  · intro h inner part hpart
    obtain ⟨place, rfl, hat⟩ := occurs_iff_at.mp hpart
    exact h place part hat

theorem fits_of_unbroken (h : (bound bounds path depth value).violation = none) :
    Fits bounds depth value :=
  unbroken_iff.mp h [] value (.here value)

theorem exists_breaks (path : String) (h : ¬Fits bounds depth value) :
    ∃ v, Breaks bounds path depth value v ∧
      bound bounds path depth value = ⟨value, [], some v⟩ := by
  cases value with
  | text s =>
      obtain ⟨huncut, hlong⟩ := not_or.mp h
      rw [Nat.not_le] at hlong
      refine ⟨_, .tooLongText (Bool.eq_false_iff.mpr huncut) hlong, ?_⟩
      rw [bound, boundText, if_neg (Nat.not_le.mpr hlong), if_neg huncut]
  | array items =>
      by_cases hdepth : bounds.maxDepth < depth + 1
      · exact ⟨_, .tooDeep rfl hdepth, by rw [bound, if_pos hdepth]⟩
      · have hmany : bounds.maxItems < items.length :=
          Nat.not_le.mp fun hle => h ⟨Nat.not_lt.mp hdepth, hle⟩
        exact ⟨_, .tooManyItems (Nat.not_lt.mp hdepth) hmany,
          by rw [bound, if_neg hdepth, if_pos hmany]⟩
  | object members =>
      have hdepth : bounds.maxDepth < depth + 1 := Nat.not_le.mp h
      exact ⟨_, .tooDeep rfl hdepth, by rw [bound, if_pos hdepth]⟩
  | _ => exact absurd trivial h

theorem unbroken_leaf (path : String) (hleaf : value.isLeaf = true)
    (hfits : Fits bounds depth value) : (bound bounds path depth value).violation = none := by
  rw [bound_violation, List.head?_eq_none_iff, breaches_eq_nil, forall_occurs_leaf hleaf]
  exact hfits

-- What is cut

theorem shortened_eq_mapTexts (value : Json) :
    shortened bounds value = mapTexts (fun _ => shortText bounds) value := by
  induction value using induct_contents with
  | h value ih =>
      cases value with
      | array items =>
          rw [mapTexts_eq_refilled rfl, ← List.map_congr_left ih, shortened,
            shortenedItems_eq_map, refilled, contents, map_itemEntries]
      | object members =>
          rw [mapTexts_eq_refilled rfl, ← List.map_congr_left ih, shortened,
            shortenedMembers_eq_map, refilled, contents, zip_memberEntries]
      | _ => rfl

theorem bound_cut (h : (bound bounds path depth value).violation = none) :
    (bound bounds path depth value).cut =
      (longPlaces bounds value).map fun place => Path.display (pathFrom path place) := by
  induction value using induct_contents generalizing path depth with
  | h value ih =>
      cases hleaf : value.isLeaf with
      | false =>
          have hself : isLong bounds value = false := by
            cases value with
            | text s => contradiction
            | _ => rfl
          have hfits := fits_of_unbroken h
          rw [bound_eq_walk hleaf hfits] at h ⊢
          obtain ⟨hentries, hcut⟩ := walk_ends h
          rw [longPlaces, tour_eq, List.filter_cons_of_neg (by simp [hself]),
            List.filter_flatMap, List.map_flatMap, List.map_flatMap]
          refine hcut.trans (List.flatMap_congr fun e he => ?_)
          rw [ih e he (hentries e he), behind, List.filter_map, List.map_map, List.map_map,
            longPlaces, List.map_map]
          rfl
      | true =>
          cases value with
          | text s =>
              have hfits : s.length ≤ bounds.maxCharacters ∨ bounds.cutLongTexts = true :=
                (fits_of_unbroken h).symm
              simp only [bound, boundText, longPlaces, tour, isLong]
              split_ifs with hshort hcut
              · simp [Nat.not_lt.mpr hshort]
              · simp [Nat.not_le.mp hshort, pathFrom]
              · simp [hshort, hcut] at hfits
          | array items => contradiction
          | object members => contradiction
          | _ => rfl

theorem mem_longPlaces : place ∈ longPlaces bounds value ↔
    ∃ s, At value place (text s) ∧ bounds.maxCharacters < s.length := by
  simp only [longPlaces, List.mem_map, List.mem_filter, Prod.exists, exists_and_right,
    exists_eq_right, mem_tour]
  constructor
  · rintro ⟨part, hpart, hlong⟩
    cases part with
    | text s => exact ⟨s, hpart, of_decide_eq_true hlong⟩
    | _ => cases hlong
  · rintro ⟨s, hpart, hlong⟩
    exact ⟨text s, hpart, decide_eq_true hlong⟩

theorem pairwise_longPlaces (h : Canonical value) : (longPlaces bounds value).Pairwise Earlier :=
  ((pairwise_tour h).filter _).map _ fun _ _ hearlier => hearlier

-- The first violation

theorem bound_stops (hcanonical : Canonical value)
    (h : (bound bounds path depth value).violation = some v) :
    ∃ place part, At value place part ∧
      Breaks bounds (pathFrom path place) (depth + place.length) part v ∧
      (∀ earlier other, At value earlier other → Earlier earlier place →
        Fits bounds (depth + earlier.length) other) ∧
      (bound bounds path depth value).value =
        mapTexts (fun other s => if Earlier other place then shortText bounds s else s) value := by
  induction value using induct_contents generalizing path depth with
  | h value ih =>
      by_cases hfits : Fits bounds depth value
      · have hcontainer : value.isLeaf = false := by
          by_contra hleaf
          rw [unbroken_leaf path (Bool.not_eq_false _ ▸ hleaf) hfits] at h
          cases h
        rw [bound_eq_walk hcontainer hfits] at h ⊢
        obtain ⟨before, step, child, after, hsplit, hbefore, hchild, hvalue⟩ := walk_stops h
        have hmem : (step, child) ∈ contents value := hsplit ▸ by simp
        obtain ⟨place, part, hpart, hbreaks, hfirst, hrest⟩ :=
          ih _ hmem (hcanonical.of_mem_contents hmem) hchild
        have hdepth : ∀ n, depth + (n + 1) = depth + 1 + n := fun n => by omega
        refine ⟨step :: place, part, at_cons.mpr ⟨child, hmem, hpart⟩, ?_, ?_, ?_⟩
        · rw [List.length_cons, hdepth]
          exact hbreaks
        · intro earlier other hother hearlier
          rcases at_earlier hcanonical hsplit hother hearlier with
            ⟨rfl, rfl⟩ | ⟨e, he, rest, rfl, hat⟩ | ⟨rest, rfl, hat, hbefore⟩
          · exact hfits
          · rw [List.length_cons, hdepth]
            exact unbroken_iff.mp (hbefore e he) rest other hat
          · rw [List.length_cons, hdepth]
            exact hfirst rest other hat hbefore
        · rw [mapTexts_earlier hcanonical hcontainer hsplit, ← hrest]
          refine congrArg (refilled value) (hvalue.trans ?_)
          simp only [shortened_eq_mapTexts]
      · obtain ⟨w, hbreaks, hbound⟩ := exists_breaks path hfits
        rw [hbound] at h ⊢
        obtain rfl : w = v := Option.some.inj h
        refine ⟨[], value, .here value, hbreaks, ?_, ?_⟩
        · exact fun earlier other _ hearlier => absurd hearlier not_earlier_nil
        · simp only [not_earlier_nil, if_false, mapTexts_id]

-- A value once held to the bounds

theorem unbroken_shortened (h : (value.enforce bounds).violation = none) :
    ((shortened bounds value).enforce bounds).violation = none := by
  have hwithin := within_of_unbroken h
  rw [enforce_violation, List.head?_eq_none_iff, within_iff]
  intro depth part hpart
  obtain ⟨before, hbefore, rfl⟩ := occurs_shortened.mp hpart
  have hfits := hwithin depth before hbefore
  cases before with
  | text s => exact .inr (length_le_of_shortened hwithin ⟨depth, hpart⟩)
  | array items =>
      rw [shortened, shortenedItems_eq_map]
      exact ⟨hfits.1, (List.length_map _).trans_le hfits.2⟩
  | _ => exact hfits

theorem enforce_again (h : (value.enforce bounds).violation = none) :
    (value.enforce bounds).value.enforce bounds = ⟨(value.enforce bounds).value, [], none⟩ := by
  rw [enforce_value h]
  have hnone := unbroken_shortened h
  have hcut : ((shortened bounds value).enforce bounds).cut = [] := by
    rw [enforce, bound_cut hnone, List.map_eq_nil_iff, List.eq_nil_iff_forall_not_mem]
    intro place hmem
    obtain ⟨s, hpart, hlong⟩ := mem_longPlaces.mp hmem
    have hshort := length_le_of_shortened (within_of_unbroken h)
      ⟨_, occurs_iff_at.mpr ⟨place, rfl, hpart⟩⟩
    exact absurd hlong (Nat.not_lt.mpr hshort)
  have hvalue := enforce_uncut hcut
  cases hresult : (shortened bounds value).enforce bounds with
  | mk again cut violation =>
      rw [hresult] at hnone hcut hvalue
      obtain ⟨rfl, rfl, rfl⟩ : again = _ ∧ cut = _ ∧ violation = _ := ⟨hvalue, hcut, hnone⟩
      rfl

theorem shortText_eq_leading {s : String}
    (h : bounds.cutLongTexts = true ∨ s.length ≤ bounds.maxCharacters) :
    shortText bounds s = leading bounds.maxCharacters s := by
  rw [shortText, leading]
  split_ifs with hcut
  · rfl
  · rw [List.take_of_length_le, String.ofList_toList]
    rw [String.length_toList]
    exact h.resolve_left hcut

-- The bounds are held by a value exactly if each of its parts holds them. Then every text is cut
-- to its first characters, the places of those that were longer are told in the order of the
-- walk, and a second walk finds nothing to do. Otherwise the first part that breaks a bound is
-- told, and only the texts before it are cut.
theorem enforcement_exact (bounds : ValidationSettings) {value : Json}
    (hcanonical : Canonical value) :
    ((value.enforce bounds).violation = none ↔
      ∀ place part, At value place part → Fits bounds place.length part) ∧
    ((value.enforce bounds).violation = none →
      (value.enforce bounds).value = value.mapTexts (fun _ => leading bounds.maxCharacters) ∧
      (∃ places : List (List Step), places.Pairwise Earlier ∧
        (∀ place, place ∈ places ↔
          ∃ s, At value place (text s) ∧ bounds.maxCharacters < s.length) ∧
        (value.enforce bounds).cut = places.map fun place => Path.display (pathFrom "" place)) ∧
      (value.enforce bounds).value.enforce bounds = ⟨(value.enforce bounds).value, [], none⟩) ∧
    ∀ v, (value.enforce bounds).violation = some v → ∃ place part, At value place part ∧
      Breaks bounds (pathFrom "" place) place.length part v ∧
      (∀ earlier other, At value earlier other → Earlier earlier place →
        Fits bounds earlier.length other) ∧
      (value.enforce bounds).value = value.mapTexts fun other s =>
        if Earlier other place then leading bounds.maxCharacters s else s := by
  refine ⟨?_, fun hnone => ⟨?_, ?_, enforce_again hnone⟩, fun v hv => ?_⟩
  · rw [enforce, unbroken_iff]
    simp only [Nat.zero_add]
  · rw [enforce_value hnone, shortened_eq_mapTexts]
    refine mapTexts_congr fun place s hs => shortText_eq_leading ?_
    exact unbroken_iff.mp hnone place _ hs
  · exact ⟨longPlaces bounds value, pairwise_longPlaces hcanonical, fun _ => mem_longPlaces,
      bound_cut hnone⟩
  · obtain ⟨place, part, hpart, hbreaks, hfirst, hvalue⟩ := bound_stops hcanonical hv
    simp only [Nat.zero_add] at hbreaks hfirst
    refine ⟨place, part, hpart, hbreaks, hfirst, hvalue.trans ?_⟩
    refine mapTexts_congr fun other s hs => ?_
    split_ifs with hearlier
    · exact shortText_eq_leading (hfirst other _ hs hearlier)
    · rfl

-- A list that is too long, with a text before it that is cut and one after it that is not.
theorem enforcement_exact_long_list :
    let bounds : ValidationSettings := { maxDepth := 2, maxItems := 1, maxCharacters := 1 }
    let value := object [("a", text "xy"), ("b", array [array [], null]), ("c", text "uv")]
    Canonical value ∧
      (value.enforce bounds).value =
        object [("a", text "x"), ("b", array [array [], null]), ("c", text "uv")] ∧
      ∃ place part, At value place part ∧
        Breaks bounds (pathFrom "" place) place.length part (.tooManyItems "b" 2 1) ∧
        (∀ earlier other, At value earlier other → Earlier earlier place →
          Fits bounds earlier.length other) ∧
        (value.enforce bounds).value = value.mapTexts fun other s =>
          if Earlier other place then leading bounds.maxCharacters s else s := by
  intro bounds value
  have hcanonical : Canonical value := by
    refine .object (by unfold Ascending; decide) ?_
    simp only [List.forall_mem_cons, List.not_mem_nil, false_implies, implies_true, and_true]
    exact ⟨.text _, .array (by simp [Canonical.null, Canonical.array]), .text _⟩
  have hviolation : (value.enforce bounds).violation = some (.tooManyItems "b" 2 1) := by
    decide +kernel
  obtain ⟨-, -, hfirst⟩ := enforcement_exact bounds hcanonical
  exact ⟨hcanonical, by rfl, hfirst _ hviolation⟩

end RequestGuard.Json
