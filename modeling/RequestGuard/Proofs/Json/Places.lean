import RequestGuard.Proofs.Json.Occurrence
import RequestGuard.Proofs.Text.Utf8

namespace RequestGuard.Json

inductive Step where
  | item (i : Nat)
  | member (i : Nat) (key : String)
deriving DecidableEq

-- A part of a value with the way that leads to it.
inductive At : Json → List Step → Json → Prop
  | here (value : Json) : At value [] value
  | item {items : List Json} {i : Nat} {value part : Json} {place : List Step} :
      items[i]? = some value → At value place part → At (array items) (.item i :: place) part
  | member {members : List (String × Json)} {i : Nat} {key : String} {value part : Json}
      {place : List Step} : members[i]? = some (key, value) → At value place part →
      At (object members) (.member i key :: place) part

def itemEntries (n : Nat) (items : List Json) : List (Step × Json) :=
  (items.zipIdx n).map fun (item, i) => (.item i, item)

def memberEntries (n : Nat) (members : List (String × Json)) : List (Step × Json) :=
  (members.zipIdx n).map fun (member, i) => (.member i member.1, member.2)

-- What a container holds, with the step to each.
def contents : Json → List (Step × Json)
  | array items => itemEntries 0 items
  | object members => memberEntries 0 members
  | _ => []

-- A container with other values in the places of those it holds.
def refilled : Json → List Json → Json
  | array _, values => array values
  | object members, values => object ((members.map Prod.fst).zip values)
  | other, _ => other

def Step.Before : Step → Step → Prop
  | item i, item j => i < j
  | member _ key, member _ other => bytesOf key < bytesOf other
  | _, _ => False

instance : DecidableRel Step.Before
  | .item i, .item j => inferInstanceAs (Decidable (i < j))
  | .member _ key, .member _ other => inferInstanceAs (Decidable (bytesOf key < bytesOf other))
  | .item _, .member _ _ => .isFalse not_false
  | .member _ _, .item _ => .isFalse not_false

-- The order in which a walk comes to the parts: a container before what it holds, items by
-- their index and members by the bytes of their keys.
def Earlier : List Step → List Step → Prop :=
  List.Lex Step.Before

instance : DecidableRel Earlier :=
  List.decidableLex Step.Before

-- What lies behind a step, from what lies in the value it leads to.
def behind (step : Step) (parts : List (List Step × Json)) : List (List Step × Json) :=
  parts.map fun (place, part) => (step :: place, part)

mutual

-- All parts of a value in that order.
def tour : Json → List (List Step × Json)
  | array items => ([], array items) :: tourItems 0 items
  | object members => ([], object members) :: tourMembers 0 members
  | other => [([], other)]

def tourItems (n : Nat) : List Json → List (List Step × Json)
  | [] => []
  | item :: rest => behind (.item n) (tour item) ++ tourItems (n + 1) rest

def tourMembers (n : Nat) : List (String × Json) → List (List Step × Json)
  | [] => []
  | (key, value) :: rest => behind (.member n key) (tour value) ++ tourMembers (n + 1) rest

end

mutual

-- A value with its texts replaced, each by what stands for it at its place.
def mapTexts (f : List Step → String → String) : Json → Json
  | text s => text (f [] s)
  | array items => array (mapItems f 0 items)
  | object members => object (mapMembers f 0 members)
  | other => other

def mapItems (f : List Step → String → String) (n : Nat) : List Json → List Json
  | [] => []
  | item :: rest =>
    mapTexts (fun place => f (.item n :: place)) item :: mapItems f (n + 1) rest

def mapMembers (f : List Step → String → String) (n : Nat) :
    List (String × Json) → List (String × Json)
  | [] => []
  | (key, value) :: rest =>
    (key, mapTexts (fun place => f (.member n key :: place)) value) :: mapMembers f (n + 1) rest

end

variable {value part child : Json} {items : List Json} {members : List (String × Json)}
  {place earlier : List Step} {step other : Step} {i : Nat} {key : String}

theorem at_nil : At value [] part ↔ part = value := by
  constructor
  · intro h
    cases h
    rfl
  · rintro rfl
    exact .here part

theorem at_item : At (array items) (.item i :: place) part ↔
    ∃ item, items[i]? = some item ∧ At item place part := by
  constructor
  · intro h
    cases h with
    | item hitem hpart => exact ⟨_, hitem, hpart⟩
  · rintro ⟨item, hitem, hpart⟩
    exact .item hitem hpart

theorem at_member : At (object members) (.member i key :: place) part ↔
    ∃ value, members[i]? = some (key, value) ∧ At value place part := by
  constructor
  · intro h
    cases h with
    | member hmember hpart => exact ⟨_, hmember, hpart⟩
  · rintro ⟨value, hmember, hpart⟩
    exact .member hmember hpart

theorem At.unique {a b : Json} (ha : At value place a) (hb : At value place b) : a = b := by
  induction ha with
  | here value => exact (at_nil.mp hb).symm
  | item hitem hpart ih =>
      obtain ⟨item, hother, hb⟩ := at_item.mp hb
      cases hitem.symm.trans hother
      exact ih hb
  | member hmember hpart ih =>
      obtain ⟨value, hother, hb⟩ := at_member.mp hb
      cases hmember.symm.trans hother
      exact ih hb

-- What a container holds

@[simp] theorem itemEntries_cons (n : Nat) (item : Json) (rest : List Json) :
    itemEntries n (item :: rest) = (.item n, item) :: itemEntries (n + 1) rest := rfl

@[simp] theorem memberEntries_cons (n : Nat) (member : String × Json)
    (rest : List (String × Json)) : memberEntries n (member :: rest) =
      (.member n member.1, member.2) :: memberEntries (n + 1) rest := rfl

theorem mem_contents_array : (step, child) ∈ contents (array items) ↔
    ∃ i, step = .item i ∧ items[i]? = some child := by
  simp only [contents, itemEntries, List.mem_map, Prod.exists, List.mk_mem_zipIdx_iff_getElem?,
    Prod.mk.injEq]
  constructor
  · rintro ⟨item, i, hitem, rfl, rfl⟩
    exact ⟨i, rfl, hitem⟩
  · rintro ⟨i, rfl, hitem⟩
    exact ⟨child, i, hitem, rfl, rfl⟩

theorem mem_contents_object : (step, child) ∈ contents (object members) ↔
    ∃ i key, step = .member i key ∧ members[i]? = some (key, child) := by
  simp only [contents, memberEntries, List.mem_map, Prod.exists,
    List.mk_mem_zipIdx_iff_getElem?, Prod.mk.injEq]
  constructor
  · rintro ⟨key, value, i, hmember, rfl, rfl⟩
    exact ⟨i, key, rfl, hmember⟩
  · rintro ⟨i, key, rfl, hmember⟩
    exact ⟨key, child, i, hmember, rfl, rfl⟩

theorem map_itemEntries (g : Json → Json) (n : Nat) (items : List Json) :
    ((itemEntries n items).map fun e => g e.2) = items.map g := by
  induction items generalizing n with
  | nil => rfl
  | cons item rest ih => rw [itemEntries_cons, List.map_cons, List.map_cons, ih]

theorem zip_memberEntries (g : Json → Json) (n : Nat) (members : List (String × Json)) :
    (members.map Prod.fst).zip ((memberEntries n members).map fun e => g e.2) =
      members.map fun member => (member.1, g member.2) := by
  induction members generalizing n with
  | nil => rfl
  | cons member rest ih =>
      rw [memberEntries_cons, List.map_cons, List.map_cons, List.zip_cons_cons, ih, List.map_cons]

theorem refilled_contents (value : Json) :
    refilled value ((contents value).map Prod.snd) = value := by
  cases value with
  | array items => exact congrArg array ((map_itemEntries id 0 items).trans (List.map_id items))
  | object members =>
      exact congrArg object ((zip_memberEntries id 0 members).trans (List.map_id members))
  | _ => rfl

theorem at_cons : At value (step :: place) part ↔
    ∃ child, (step, child) ∈ contents value ∧ At child place part := by
  constructor
  · intro h
    cases h with
    | item hitem hpart => exact ⟨_, mem_contents_array.mpr ⟨_, rfl, hitem⟩, hpart⟩
    | member hmember hpart => exact ⟨_, mem_contents_object.mpr ⟨_, _, rfl, hmember⟩, hpart⟩
  · rintro ⟨child, hchild, hpart⟩
    cases value with
    | array items =>
        obtain ⟨i, rfl, hitem⟩ := mem_contents_array.mp hchild
        exact .item hitem hpart
    | object members =>
        obtain ⟨i, key, rfl, hmember⟩ := mem_contents_object.mp hchild
        exact .member hmember hpart
    | _ => exact absurd hchild List.not_mem_nil

-- Lists and objects alike.
theorem induct_contents {motive : Json → Prop}
    (h : ∀ value, (∀ entry ∈ contents value, motive entry.2) → motive value) (value : Json) :
    motive value := by
  induction value with
  | array items ih =>
      refine h _ fun entry hentry => ?_
      obtain ⟨i, -, hitem⟩ := mem_contents_array.mp hentry
      exact ih _ (List.mem_of_getElem? hitem)
  | object members ih =>
      refine h _ fun entry hentry => ?_
      obtain ⟨i, key, -, hmember⟩ := mem_contents_object.mp hentry
      exact ih _ (List.mem_of_getElem? hmember)
  | _ => exact h _ (List.forall_mem_nil _)

theorem Canonical.of_mem_contents (h : Canonical value) {entry : Step × Json}
    (hentry : entry ∈ contents value) : Canonical entry.2 := by
  cases h with
  | array hitems =>
      obtain ⟨i, -, hitem⟩ := mem_contents_array.mp hentry
      exact hitems _ (List.mem_of_getElem? hitem)
  | object hkeys hvalues =>
      obtain ⟨i, key, -, hmember⟩ := mem_contents_object.mp hentry
      exact hvalues _ (List.mem_of_getElem? hmember)
  | _ => exact absurd hentry List.not_mem_nil

theorem occurs_iff_at {depth : Nat} :
    Occurs depth part value ↔ ∃ place, place.length = depth ∧ At value place part := by
  constructor
  · intro h
    induction h with
    | here value => exact ⟨[], rfl, .here value⟩
    | item hitem h ih =>
        obtain ⟨place, hlength, hpart⟩ := ih
        obtain ⟨i, hi⟩ := List.mem_iff_getElem?.mp hitem
        exact ⟨.item i :: place, congrArg Nat.succ hlength, .item hi hpart⟩
    | value hmember h ih =>
        obtain ⟨place, hlength, hpart⟩ := ih
        obtain ⟨i, hi⟩ := List.mem_iff_getElem?.mp hmember
        exact ⟨.member i _ :: place, congrArg Nat.succ hlength, .member hi hpart⟩
  · rintro ⟨place, rfl, h⟩
    induction h with
    | here value => exact .here value
    | item hitem _ ih => exact .item (List.mem_of_getElem? hitem) ih
    | member hmember _ ih => exact .value (List.mem_of_getElem? hmember) ih

-- The order of the places

theorem Step.Before.irrefl : ¬step.Before step := by
  cases step with
  | item i => exact Nat.lt_irrefl i
  | member i key => exact List.lt_irrefl (bytesOf key)

theorem Step.Before.asymm (h : step.Before other) : ¬other.Before step := by
  cases step <;> cases other
  · exact Nat.lt_asymm h
  · exact h.elim
  · exact h.elim
  · exact List.lt_asymm h

@[simp] theorem not_earlier_nil : ¬Earlier place [] :=
  List.not_lex_nil

theorem earlier_nil : Earlier [] (step :: place) :=
  .nil

theorem earlier_cons : Earlier (other :: earlier) (step :: place) ↔
    other.Before step ∨ other = step ∧ Earlier earlier place := by
  constructor
  · intro h
    cases h with
    | rel hbefore => exact .inl hbefore
    | cons hrest => exact .inr ⟨rfl, hrest⟩
  · rintro (hbefore | ⟨rfl, hrest⟩)
    · exact .rel hbefore
    · exact .cons hrest

theorem earlier_cons_self : Earlier (step :: earlier) (step :: place) ↔ Earlier earlier place := by
  rw [earlier_cons, or_iff_right Step.Before.irrefl, and_iff_right rfl]

theorem earlier_of_before (h : other.Before step) : Earlier (other :: earlier) (step :: place) :=
  .rel h

theorem not_earlier_of_before (h : step.Before other) :
    ¬Earlier (other :: earlier) (step :: place) := by
  intro hearlier
  rcases earlier_cons.mp hearlier with hbefore | ⟨rfl, -⟩
  · exact h.asymm hbefore
  · exact Step.Before.irrefl h

theorem pairwise_itemEntries (n : Nat) (items : List Json) :
    (itemEntries n items).Pairwise (·.1.Before ·.1) := by
  rw [List.pairwise_iff_getElem]
  intro i j hi hj hlt
  simp only [itemEntries, List.getElem_map, List.getElem_zipIdx]
  exact Nat.add_lt_add_left hlt n

theorem pairwise_memberEntries (n : Nat) (h : Ascending members) :
    (memberEntries n members).Pairwise (·.1.Before ·.1) := by
  rw [List.pairwise_iff_getElem]
  intro i j hi hj hlt
  simp only [memberEntries, List.length_map, List.length_zipIdx] at hi hj
  simp only [memberEntries, List.getElem_map, List.getElem_zipIdx]
  exact Utf8.bytesOf_lt (List.pairwise_iff_getElem.mp h i j hi hj hlt)

theorem pairwise_contents (h : Canonical value) :
    (contents value).Pairwise (·.1.Before ·.1) := by
  cases h with
  | array _ => exact pairwise_itemEntries 0 _
  | object hkeys _ => exact pairwise_memberEntries 0 hkeys
  | _ => exact .nil

section Split

variable {before after : List (Step × Json)}

theorem before_of_split (h : Canonical value)
    (hsplit : contents value = before ++ (step, child) :: after) :
    (∀ e ∈ before, e.1.Before step) ∧ ∀ e ∈ after, step.Before e.1 := by
  obtain ⟨-, htail, hcross⟩ := List.pairwise_append.mp (hsplit ▸ pairwise_contents h)
  exact ⟨fun e he => hcross e he _ List.mem_cons_self, (List.pairwise_cons.mp htail).1⟩

-- What comes before a place is the value itself, what lies in a value before the one the place
-- lies in, or what comes before it there.
theorem at_earlier (h : Canonical value)
    (hsplit : contents value = before ++ (step, child) :: after) (hpart : At value earlier part)
    (hearlier : Earlier earlier (step :: place)) : earlier = [] ∧ part = value ∨
      (∃ e ∈ before, ∃ rest, earlier = e.1 :: rest ∧ At e.2 rest part) ∨
      ∃ rest, earlier = step :: rest ∧ At child rest part ∧ Earlier rest place := by
  cases earlier with
  | nil => exact .inl ⟨rfl, at_nil.mp hpart⟩
  | cons first rest =>
      obtain ⟨other, hother, hat⟩ := at_cons.mp hpart
      rcases List.mem_append.mp (hsplit ▸ hother) with hmem | hmem
      · exact .inr (.inl ⟨_, hmem, rest, rfl, hat⟩)
      · rcases List.mem_cons.mp hmem with heq | hmem
        · cases heq
          exact .inr (.inr ⟨rest, rfl, hat, earlier_cons_self.mp hearlier⟩)
        · have hafter := (before_of_split h hsplit).2 _ hmem
          exact absurd hearlier (not_earlier_of_before hafter)

end Split

-- The tour

theorem mem_behind {parts : List (List Step × Json)} {entry : List Step × Json} :
    entry ∈ behind step parts ↔ ∃ place, entry.1 = step :: place ∧ (place, entry.2) ∈ parts := by
  obtain ⟨whole, part⟩ := entry
  simp only [behind, List.mem_map, Prod.exists, Prod.mk.injEq]
  constructor
  · rintro ⟨place, _, hmem, rfl, rfl⟩
    exact ⟨place, rfl, hmem⟩
  · rintro ⟨place, rfl, hmem⟩
    exact ⟨place, part, hmem, rfl, rfl⟩

theorem tourItems_eq (n : Nat) (items : List Json) :
    tourItems n items = (itemEntries n items).flatMap fun e => behind e.1 (tour e.2) := by
  induction items generalizing n with
  | nil => rfl
  | cons item rest ih => rw [tourItems, ih, itemEntries_cons, List.flatMap_cons]

theorem tourMembers_eq (n : Nat) (members : List (String × Json)) :
    tourMembers n members = (memberEntries n members).flatMap fun e => behind e.1 (tour e.2) := by
  induction members generalizing n with
  | nil => rfl
  | cons member rest ih => rw [tourMembers, ih, memberEntries_cons, List.flatMap_cons]

theorem tour_eq (value : Json) :
    tour value = ([], value) :: (contents value).flatMap fun e => behind e.1 (tour e.2) := by
  cases value with
  | array items => rw [tour, tourItems_eq, contents]
  | object members => rw [tour, tourMembers_eq, contents]
  | _ => rfl

theorem mem_tour : (place, part) ∈ tour value ↔ At value place part := by
  induction place generalizing value with
  | nil =>
      rw [tour_eq, at_nil, List.mem_cons]
      simp [mem_behind]
  | cons step rest ih =>
      rw [tour_eq, at_cons, List.mem_cons]
      simp only [Prod.mk.injEq, reduceCtorEq, false_and, false_or, List.mem_flatMap, mem_behind,
        List.cons.injEq]
      constructor
      · rintro ⟨entry, hentry, place, ⟨rfl, rfl⟩, hmem⟩
        exact ⟨entry.2, hentry, ih.mp hmem⟩
      · rintro ⟨child, hchild, hpart⟩
        exact ⟨_, hchild, rest, ⟨rfl, rfl⟩, ih.mpr hpart⟩

theorem pairwise_tour (h : Canonical value) : (tour value).Pairwise (Earlier ·.1 ·.1) := by
  induction value using induct_contents with
  | h value ih =>
      rw [tour_eq, List.pairwise_cons, List.pairwise_flatMap]
      refine ⟨?_, ?_, ?_⟩
      · intro entry hentry
        obtain ⟨e, -, hbehind⟩ := List.mem_flatMap.mp hentry
        obtain ⟨place, hplace, -⟩ := mem_behind.mp hbehind
        exact hplace ▸ earlier_nil
      · intro e he
        rw [behind, List.pairwise_map]
        exact (ih e he (h.of_mem_contents he)).imp fun hplace => earlier_cons_self.mpr hplace
      · refine (pairwise_contents h).imp fun {a b} hbefore x hx y hy => ?_
        obtain ⟨first, hfirst, -⟩ := mem_behind.mp hx
        obtain ⟨second, hsecond, -⟩ := mem_behind.mp hy
        rw [hfirst, hsecond]
        exact earlier_of_before hbefore

-- Other texts in a value

variable {f g : List Step → String → String}

theorem mapItems_eq (n : Nat) (items : List Json) : mapItems f n items =
    (itemEntries n items).map fun e => mapTexts (fun place => f (e.1 :: place)) e.2 := by
  induction items generalizing n with
  | nil => rfl
  | cons item rest ih => rw [mapItems, ih, itemEntries_cons, List.map_cons]

theorem mapMembers_eq (n : Nat) (members : List (String × Json)) : mapMembers f n members =
    (members.map Prod.fst).zip
      ((memberEntries n members).map fun e => mapTexts (fun place => f (e.1 :: place)) e.2) := by
  induction members generalizing n with
  | nil => rfl
  | cons member rest ih =>
      rw [mapMembers, ih, memberEntries_cons, List.map_cons, List.map_cons, List.zip_cons_cons]

theorem mapTexts_eq_refilled (h : value.isLeaf = false) : mapTexts f value =
    refilled value ((contents value).map fun e => mapTexts (fun place => f (e.1 :: place)) e.2) := by
  cases value with
  | array items => rw [mapTexts, mapItems_eq, refilled, contents]
  | object members => rw [mapTexts, mapMembers_eq, refilled, contents]
  | _ => contradiction

theorem mapTexts_congr (h : ∀ place s, At value place (text s) → f place s = g place s) :
    mapTexts f value = mapTexts g value := by
  induction value using induct_contents generalizing f g with
  | h value ih =>
      cases hleaf : value.isLeaf with
      | false =>
          rw [mapTexts_eq_refilled hleaf, mapTexts_eq_refilled hleaf]
          congr 1
          refine List.map_congr_left fun e he => ih e he fun place s hs => ?_
          exact h _ s (at_cons.mpr ⟨e.2, he, hs⟩)
      | true =>
          cases value with
          | text s => exact congrArg text (h [] s (.here _))
          | array items => contradiction
          | object members => contradiction
          | _ => rfl

theorem mapTexts_id (value : Json) : mapTexts (fun _ s => s) value = value := by
  induction value using induct_contents with
  | h value ih =>
      cases hleaf : value.isLeaf with
      | false =>
          rw [mapTexts_eq_refilled hleaf, List.map_congr_left ih]
          exact refilled_contents value
      | true =>
          cases value with
          | array items => contradiction
          | object members => contradiction
          | _ => rfl

-- The texts that come before a place in a container.
theorem mapTexts_earlier (h : Canonical value) (hcontainer : value.isLeaf = false)
    {before after : List (Step × Json)}
    (hsplit : contents value = before ++ (step, child) :: after) (f : String → String) :
    mapTexts (fun other s => if Earlier other (step :: place) then f s else s) value =
      refilled value (before.map (fun e => mapTexts (fun _ => f) e.2) ++
        mapTexts (fun other s => if Earlier other place then f s else s) child ::
          after.map Prod.snd) := by
  obtain ⟨hbefore, hafter⟩ := before_of_split h hsplit
  rw [mapTexts_eq_refilled hcontainer, hsplit, List.map_append, List.map_cons]
  congr 2
  · refine List.map_congr_left fun e he => ?_
    simp only [earlier_of_before (hbefore e he), if_true]
  · simp only [earlier_cons_self]
    congr 1
    refine List.map_congr_left fun e he => ?_
    simp only [not_earlier_of_before (hafter e he), if_false, mapTexts_id]

end RequestGuard.Json
