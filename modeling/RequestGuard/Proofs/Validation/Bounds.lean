import RequestGuard.Proofs.Json.Occurrence
import RequestGuard.Validation.Bounds

namespace RequestGuard.Json

variable (bounds : ValidationSettings)

-- What the bounds ask of one part of a value, with the number of containers around it.
def Fits (depth : Nat) : Json → Prop
  | text s => bounds.cutLongTexts = true ∨ s.length ≤ bounds.maxCharacters
  | array items => depth + 1 ≤ bounds.maxDepth ∧ items.length ≤ bounds.maxItems
  | object _ => depth + 1 ≤ bounds.maxDepth
  | _ => True

def Within (value : Json) : Prop :=
  ∀ depth part, Occurs depth part value → Fits bounds depth part

def depthBreaches (path : String) (depth : Nat) : List Violation :=
  if bounds.maxDepth < depth + 1 then [.tooDeep (Path.display path) bounds.maxDepth] else []

def itemBreaches (path : String) (items : List Json) : List Violation :=
  if bounds.maxItems < items.length then
    [.tooManyItems (Path.display path) items.length bounds.maxItems]
  else []

def textBreaches (path s : String) : List Violation :=
  if s.length ≤ bounds.maxCharacters then []
  else if bounds.cutLongTexts then []
  else [.tooLongText (Path.display path) s.length bounds.maxCharacters]

mutual

-- All that breaks a bound, in the order of the document: a container comes before its contents.
def breaches (path : String) (depth : Nat) : Json → List Violation
  | text s => textBreaches bounds path s
  | array items =>
    depthBreaches bounds path depth ++ itemBreaches bounds path items ++
      breachesOfItems path (depth + 1) 0 items
  | object members =>
    depthBreaches bounds path depth ++ breachesOfMembers path (depth + 1) members
  | _ => []

def breachesOfItems (path : String) (depth n : Nat) : List Json → List Violation
  | [] => []
  | item :: rest =>
    breaches (Path.index path n) depth item ++ breachesOfItems path depth (n + 1) rest

def breachesOfMembers (path : String) (depth : Nat) : List (String × Json) → List Violation
  | [] => []
  | (key, value) :: rest =>
    breaches (Path.key path key) depth value ++ breachesOfMembers path depth rest

end

-- What is left of a text when over-long ones are cut.
def shortText (s : String) : String :=
  if bounds.cutLongTexts then String.ofList (s.toList.take bounds.maxCharacters) else s

mutual

def shortened : Json → Json
  | text s => text (shortText bounds s)
  | array items => array (shortenedItems items)
  | object members => object (shortenedMembers members)
  | other => other

def shortenedItems : List Json → List Json
  | [] => []
  | item :: rest => shortened item :: shortenedItems rest

def shortenedMembers : List (String × Json) → List (String × Json)
  | [] => []
  | (key, value) :: rest => (key, shortened value) :: shortenedMembers rest

end

variable {bounds}

-- The walk stops at the first breach.

theorem boundText_violation (path s : String) :
    (boundText bounds path s).violation = (textBreaches bounds path s).head? := by
  simp only [boundText, textBreaches]
  split_ifs
  · rfl
  · rfl
  · rfl

theorem boundItems_violation {items : List Json}
    (h : ∀ item ∈ items, ∀ path depth,
      (bound bounds path depth item).violation = (breaches bounds path depth item).head?)
    (path : String) (depth n : Nat) :
    (boundItems bounds path depth n items).violation =
      (breachesOfItems bounds path depth n items).head? := by
  induction items generalizing n with
  | nil => rfl
  | cons item rest ih =>
      obtain ⟨hitem, hrest⟩ := List.forall_mem_cons.mp h
      have hfirst := hitem (Path.index path n) depth
      simp only [boundItems, breachesOfItems, List.head?_append, ← hfirst]
      cases hviolation : (bound bounds (Path.index path n) depth item).violation with
      | none => simp [ih hrest]
      | some v => simp

theorem boundMembers_violation {members : List (String × Json)}
    (h : ∀ member ∈ members, ∀ path depth,
      (bound bounds path depth member.2).violation = (breaches bounds path depth member.2).head?)
    (path : String) (depth : Nat) :
    (boundMembers bounds path depth members).violation =
      (breachesOfMembers bounds path depth members).head? := by
  induction members with
  | nil => rfl
  | cons member rest ih =>
      obtain ⟨key, value⟩ := member
      obtain ⟨hvalue, hrest⟩ := List.forall_mem_cons.mp h
      have hfirst := hvalue (Path.key path key) depth
      simp only [boundMembers, breachesOfMembers, List.head?_append, ← hfirst]
      cases hviolation : (bound bounds (Path.key path key) depth value).violation with
      | none => simp [ih hrest]
      | some v => simp

theorem bound_violation (path : String) (depth : Nat) (value : Json) :
    (bound bounds path depth value).violation = (breaches bounds path depth value).head? := by
  induction value generalizing path depth with
  | null => rfl
  | bool b => rfl
  | number n => rfl
  | text s => exact boundText_violation path s
  | array items ih =>
      simp only [bound, breaches, depthBreaches, itemBreaches]
      by_cases hdepth : bounds.maxDepth < depth + 1
      · rw [if_pos hdepth, if_pos hdepth]
        rfl
      rw [if_neg hdepth, if_neg hdepth, List.nil_append]
      by_cases hlength : bounds.maxItems < items.length
      · rw [if_pos hlength, if_pos hlength]
        rfl
      rw [if_neg hlength, if_neg hlength, List.nil_append]
      exact boundItems_violation ih path (depth + 1) 0
  | object members ih =>
      simp only [bound, breaches, depthBreaches]
      by_cases hdepth : bounds.maxDepth < depth + 1
      · rw [if_pos hdepth, if_pos hdepth]
        rfl
      rw [if_neg hdepth, if_neg hdepth, List.nil_append]
      exact boundMembers_violation ih path (depth + 1)

-- No bound is broken exactly if every part fits.

theorem textBreaches_eq_nil {path s : String} {depth : Nat} :
    textBreaches bounds path s = [] ↔ Fits bounds depth (text s) := by
  unfold textBreaches Fits
  split_ifs with hlength hcut
  · simp [hlength]
  · simp [hcut]
  · simp [hlength, hcut]

theorem depthBreaches_eq_nil {path : String} {depth : Nat} :
    depthBreaches bounds path depth = [] ↔ depth + 1 ≤ bounds.maxDepth := by
  unfold depthBreaches
  split_ifs with hdepth
  · exact iff_of_false not_false (Nat.not_le.mpr hdepth)
  · exact ⟨fun _ => Nat.not_lt.mp hdepth, fun _ => rfl⟩

theorem itemBreaches_eq_nil {path : String} {items : List Json} :
    itemBreaches bounds path items = [] ↔ items.length ≤ bounds.maxItems := by
  unfold itemBreaches
  split_ifs with hlength
  · exact iff_of_false not_false (Nat.not_le.mpr hlength)
  · exact ⟨fun _ => Nat.not_lt.mp hlength, fun _ => rfl⟩

theorem breachesOfItems_eq_nil {items : List Json} {depth : Nat} {P : Json → Prop}
    (h : ∀ item ∈ items, ∀ path, breaches bounds path depth item = [] ↔ P item)
    (path : String) (n : Nat) :
    breachesOfItems bounds path depth n items = [] ↔ ∀ item ∈ items, P item := by
  induction items generalizing n with
  | nil => simp [breachesOfItems]
  | cons item rest ih =>
      obtain ⟨hitem, hrest⟩ := List.forall_mem_cons.mp h
      rw [breachesOfItems, List.append_eq_nil_iff, hitem, ih hrest, List.forall_mem_cons]

theorem breachesOfMembers_eq_nil {members : List (String × Json)} {depth : Nat}
    {P : String × Json → Prop}
    (h : ∀ member ∈ members, ∀ path, breaches bounds path depth member.2 = [] ↔ P member)
    (path : String) :
    breachesOfMembers bounds path depth members = [] ↔ ∀ member ∈ members, P member := by
  induction members with
  | nil => simp [breachesOfMembers]
  | cons member rest ih =>
      obtain ⟨key, value⟩ := member
      obtain ⟨hvalue, hrest⟩ := List.forall_mem_cons.mp h
      rw [breachesOfMembers, List.append_eq_nil_iff, hvalue, ih hrest, List.forall_mem_cons]

theorem breaches_eq_nil (path : String) (depth : Nat) (value : Json) :
    breaches bounds path depth value = [] ↔
      ∀ inner part, Occurs inner part value → Fits bounds (depth + inner) part := by
  induction value generalizing path depth with
  | text s =>
      rw [forall_occurs_leaf rfl]
      exact textBreaches_eq_nil
  | array items ih =>
      rw [forall_occurs_array, breaches, List.append_eq_nil_iff, List.append_eq_nil_iff,
        depthBreaches_eq_nil, itemBreaches_eq_nil,
        breachesOfItems_eq_nil fun item hitem path => ih item hitem path (depth + 1)]
      simp only [Fits, Nat.add_zero, Nat.add_right_comm, Nat.add_assoc]
  | object members ih =>
      rw [forall_occurs_object, breaches, List.append_eq_nil_iff, depthBreaches_eq_nil,
        breachesOfMembers_eq_nil fun member hmember path => ih member hmember path (depth + 1)]
      simp only [Fits, Nat.add_zero, Nat.add_right_comm, Nat.add_assoc]
  | _ =>
      rw [forall_occurs_leaf rfl]
      exact ⟨fun _ => trivial, fun _ => rfl⟩

theorem enforce_violation (value : Json) :
    (value.enforce bounds).violation = (breaches bounds "" 0 value).head? :=
  bound_violation "" 0 value

theorem within_iff (value : Json) : breaches bounds "" 0 value = [] ↔ Within bounds value := by
  simp only [breaches_eq_nil, Within, Nat.zero_add]

-- A walk that comes to no breach shortens every text and nothing else.

theorem boundText_value {path s : String} (h : (boundText bounds path s).violation = none) :
    (boundText bounds path s).value = text (shortText bounds s) := by
  unfold boundText shortText at *
  split_ifs at h ⊢ with hlength hcut hcut
  · have htake : s.toList.take bounds.maxCharacters = s.toList :=
      List.take_of_length_le (by rw [String.length_toList]; exact hlength)
    rw [htake, String.ofList_toList]
  · rfl
  · rfl

theorem boundItems_value {items : List Json}
    (h : ∀ item ∈ items, ∀ path depth, (bound bounds path depth item).violation = none →
      (bound bounds path depth item).value = shortened bounds item)
    {path : String} {depth n : Nat}
    (hnone : (boundItems bounds path depth n items).violation = none) :
    (boundItems bounds path depth n items).value = shortenedItems bounds items := by
  induction items generalizing n with
  | nil => rfl
  | cons item rest ih =>
      obtain ⟨hitem, hrest⟩ := List.forall_mem_cons.mp h
      have hfirst := hitem (Path.index path n) depth
      simp only [boundItems, shortenedItems] at hnone ⊢
      cases hviolation : (bound bounds (Path.index path n) depth item).violation with
      | some v => simp [hviolation] at hnone
      | none =>
          simp only [hviolation, Option.isSome_none, Bool.false_eq_true, if_false] at hnone ⊢
          rw [hfirst hviolation, ih hrest hnone]

theorem boundMembers_value {members : List (String × Json)}
    (h : ∀ member ∈ members, ∀ path depth,
      (bound bounds path depth member.2).violation = none →
      (bound bounds path depth member.2).value = shortened bounds member.2)
    {path : String} {depth : Nat}
    (hnone : (boundMembers bounds path depth members).violation = none) :
    (boundMembers bounds path depth members).value = shortenedMembers bounds members := by
  induction members with
  | nil => rfl
  | cons member rest ih =>
      obtain ⟨key, value⟩ := member
      obtain ⟨hvalue, hrest⟩ := List.forall_mem_cons.mp h
      have hfirst := hvalue (Path.key path key) depth
      simp only [boundMembers, shortenedMembers] at hnone ⊢
      cases hviolation : (bound bounds (Path.key path key) depth value).violation with
      | some v => simp [hviolation] at hnone
      | none =>
          simp only [hviolation, Option.isSome_none, Bool.false_eq_true, if_false] at hnone ⊢
          rw [hfirst hviolation, ih hrest hnone]

theorem bound_value {path : String} {depth : Nat} {value : Json}
    (h : (bound bounds path depth value).violation = none) :
    (bound bounds path depth value).value = shortened bounds value := by
  induction value generalizing path depth with
  | null => rfl
  | bool b => rfl
  | number n => rfl
  | text s => exact boundText_value h
  | array items ih =>
      simp only [bound] at h ⊢
      split_ifs at h ⊢
      exact congrArg array (boundItems_value (fun item hitem _ _ => ih item hitem) h)
  | object members ih =>
      simp only [bound] at h ⊢
      split_ifs at h ⊢
      exact congrArg object (boundMembers_value (fun member hmember _ _ => ih member hmember) h)

theorem enforce_value {value : Json} (h : (value.enforce bounds).violation = none) :
    (value.enforce bounds).value = shortened bounds value :=
  bound_value h

-- A walk that cuts nothing leaves the value as it is.

theorem boundText_uncut {path s : String} (h : (boundText bounds path s).cut = []) :
    (boundText bounds path s).value = text s := by
  unfold boundText at *
  split_ifs at h ⊢
  · rfl
  · rfl

theorem boundItems_uncut {items : List Json}
    (h : ∀ item ∈ items, ∀ path depth, (bound bounds path depth item).cut = [] →
      (bound bounds path depth item).value = item)
    {path : String} {depth n : Nat} (hcut : (boundItems bounds path depth n items).cut = []) :
    (boundItems bounds path depth n items).value = items := by
  induction items generalizing n with
  | nil => rfl
  | cons item rest ih =>
      obtain ⟨hitem, hrest⟩ := List.forall_mem_cons.mp h
      simp only [boundItems] at hcut ⊢
      split_ifs at hcut ⊢
      · rw [hitem _ _ hcut]
      · obtain ⟨hfirst, hmore⟩ := List.append_eq_nil_iff.mp hcut
        rw [hitem _ _ hfirst, ih hrest hmore]

theorem boundMembers_uncut {members : List (String × Json)}
    (h : ∀ member ∈ members, ∀ path depth, (bound bounds path depth member.2).cut = [] →
      (bound bounds path depth member.2).value = member.2)
    {path : String} {depth : Nat} (hcut : (boundMembers bounds path depth members).cut = []) :
    (boundMembers bounds path depth members).value = members := by
  induction members with
  | nil => rfl
  | cons member rest ih =>
      obtain ⟨key, value⟩ := member
      obtain ⟨hvalue, hrest⟩ := List.forall_mem_cons.mp h
      simp only [boundMembers] at hcut ⊢
      split_ifs at hcut ⊢
      · rw [hvalue _ _ hcut]
      · obtain ⟨hfirst, hmore⟩ := List.append_eq_nil_iff.mp hcut
        rw [hvalue _ _ hfirst, ih hrest hmore]

theorem bound_uncut {path : String} {depth : Nat} {value : Json}
    (h : (bound bounds path depth value).cut = []) :
    (bound bounds path depth value).value = value := by
  induction value generalizing path depth with
  | text s => exact boundText_uncut h
  | array items ih =>
      simp only [bound] at h ⊢
      split_ifs at h ⊢
      · rfl
      · rfl
      · exact congrArg array (boundItems_uncut (fun item hitem _ _ => ih item hitem) h)
  | object members ih =>
      simp only [bound] at h ⊢
      split_ifs at h ⊢
      · rfl
      · exact congrArg object (boundMembers_uncut (fun member hmember _ _ => ih member hmember) h)
  | _ => rfl

theorem enforce_uncut {value : Json} (h : (value.enforce bounds).cut = []) :
    (value.enforce bounds).value = value :=
  bound_uncut h

-- The parts of a shortened value are the shortened parts of the value.

theorem shortenedItems_eq_map (items : List Json) :
    shortenedItems bounds items = items.map (shortened bounds) := by
  induction items with
  | nil => rfl
  | cons item rest ih => rw [shortenedItems, ih, List.map_cons]

theorem shortenedMembers_eq_map (members : List (String × Json)) :
    shortenedMembers bounds members =
      members.map fun member => (member.1, shortened bounds member.2) := by
  induction members with
  | nil => rfl
  | cons member rest ih => rw [shortenedMembers, ih, List.map_cons]

theorem Occurs.shorten {depth : Nat} {part value : Json} (h : Occurs depth part value) :
    Occurs depth (shortened bounds part) (shortened bounds value) := by
  induction h with
  | here value => exact .here _
  | item hitem h ih =>
      refine .item ?_ ih
      rw [shortenedItems_eq_map]
      exact List.mem_map_of_mem hitem
  | @value _ _ member members hmember h ih =>
      have hshort : (member.1, shortened bounds member.2) ∈ shortenedMembers bounds members := by
        rw [shortenedMembers_eq_map]
        exact List.mem_map.mpr ⟨member, hmember, rfl⟩
      exact .value hshort ih

theorem exists_of_occurs_shortened {depth : Nat} {part value : Json}
    (h : Occurs depth part (shortened bounds value)) :
    ∃ before, Occurs depth before value ∧ part = shortened bounds before := by
  induction value generalizing depth with
  | array items ih =>
      rcases occurs_array.mp h with ⟨rfl, rfl⟩ | ⟨inner, rfl, item, hitem, h⟩
      · exact ⟨array items, .here _, rfl⟩
      · rw [shortenedItems_eq_map] at hitem
        obtain ⟨original, horiginal, rfl⟩ := List.mem_map.mp hitem
        obtain ⟨before, hbefore, rfl⟩ := ih original horiginal h
        exact ⟨before, .item horiginal hbefore, rfl⟩
  | object members ih =>
      rcases occurs_object.mp h with ⟨rfl, rfl⟩ | ⟨inner, rfl, member, hmember, h⟩
      · exact ⟨object members, .here _, rfl⟩
      · rw [shortenedMembers_eq_map] at hmember
        obtain ⟨original, horiginal, rfl⟩ := List.mem_map.mp hmember
        obtain ⟨before, hbefore, rfl⟩ := ih original horiginal h
        exact ⟨before, .value horiginal hbefore, rfl⟩
  | _ =>
      obtain ⟨rfl, rfl⟩ := (occurs_leaf rfl).mp h
      exact ⟨_, .here _, rfl⟩

theorem occurs_shortened {depth : Nat} {part value : Json} :
    Occurs depth part (shortened bounds value) ↔
      ∃ before, Occurs depth before value ∧ part = shortened bounds before := by
  constructor
  · exact exists_of_occurs_shortened
  · rintro ⟨before, hbefore, rfl⟩
    exact hbefore.shorten

theorem isPart_shortened {part value : Json} :
    IsPart part (shortened bounds value) ↔
      ∃ before, IsPart before value ∧ part = shortened bounds before := by
  constructor
  · rintro ⟨depth, h⟩
    obtain ⟨before, hbefore, rfl⟩ := occurs_shortened.mp h
    exact ⟨before, ⟨depth, hbefore⟩, rfl⟩
  · rintro ⟨before, ⟨depth, hbefore⟩, rfl⟩
    exact ⟨depth, hbefore.shorten⟩

theorem isPart_text_shortened {s : String} {value : Json} :
    IsPart (text s) (shortened bounds value) ↔
      ∃ t, IsPart (text t) value ∧ s = shortText bounds t := by
  rw [isPart_shortened]
  constructor
  · rintro ⟨before, hbefore, heq⟩
    cases before with
    | text t => exact ⟨t, hbefore, Json.text.inj heq⟩
    | _ => contradiction
  · rintro ⟨t, ht, rfl⟩
    exact ⟨text t, ht, rfl⟩

theorem isPart_object_shortened {members : List (String × Json)} {value : Json} :
    IsPart (object members) (shortened bounds value) ↔
      ∃ before, IsPart (object before) value ∧
        members = before.map fun member => (member.1, shortened bounds member.2) := by
  rw [isPart_shortened]
  constructor
  · rintro ⟨before, hbefore, heq⟩
    cases before with
    | object before =>
        rw [shortened, shortenedMembers_eq_map] at heq
        exact ⟨before, hbefore, Json.object.inj heq⟩
    | _ => contradiction
  · rintro ⟨before, hbefore, rfl⟩
    exact ⟨object before, hbefore, by rw [shortened, shortenedMembers_eq_map]⟩

theorem within_of_unbroken {value : Json} (h : (value.enforce bounds).violation = none) :
    Within bounds value := by
  rw [enforce_violation, List.head?_eq_none_iff] at h
  exact (within_iff value).mp h

-- After the cuts no text is too long.
theorem length_le_of_shortened {value : Json} (hwithin : Within bounds value) {s : String}
    (h : IsPart (text s) (shortened bounds value)) : s.length ≤ bounds.maxCharacters := by
  obtain ⟨t, ⟨depth, ht⟩, rfl⟩ := isPart_text_shortened.mp h
  unfold shortText
  split
  · rw [← String.length_toList, String.toList_ofList]
    exact List.length_take_le _ _
  · next hcut => exact (hwithin depth _ ht).resolve_left hcut

end RequestGuard.Json
