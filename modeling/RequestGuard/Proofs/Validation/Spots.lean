import RequestGuard.Proofs.Validation.Enforcement
import RequestGuard.Validation.Request

namespace RequestGuard.Validation

open Json (At Step Earlier contents itemEntries memberEntries)

-- Where a text of the caller stands in a body: a text at its place, or the key of a member of the
-- object at a place.
inductive Spot where
  | leaf (place : List Step) (s : String)
  | key (parent : List Step) (i : Nat) (name : String)
deriving DecidableEq

namespace Spot

def text : Spot → String
  | leaf _ s => s
  | key _ _ name => name

-- A key is at the place of its value.
def place : Spot → List Step
  | leaf place _ => place
  | key parent i name => parent ++ [.member i name]

def isKey : Spot → Bool
  | leaf .. => false
  | key .. => true

def pathFrom (path : String) : Spot → String
  | leaf place _ => Path.display (Json.pathFrom path place)
  | key parent _ _ => Path.keyOf (Json.pathFrom path parent)

-- How a text is named in a report. A key is named by the object that it is a key of.
def path : Spot → String :=
  pathFrom ""

-- The order of a walk through the body, a key before its value.
def Before (spot other : Spot) : Prop :=
  Earlier spot.place other.place ∨
    spot.place = other.place ∧ spot.isKey = true ∧ other.isKey = false

def IsOf (value : Json) : Spot → Prop
  | leaf place s => At value place (.text s)
  | key parent i name => ∃ part, At value (parent ++ [.member i name]) part

-- A spot of a value, seen from a container that a step leads from to that value.
def below (step : Step) : Spot → Spot
  | leaf place s => leaf (step :: place) s
  | key parent i name => key (step :: parent) i name

end Spot

mutual

-- All texts and keys of a body in that order.
def spots : Json → List Spot
  | .text s => [.leaf [] s]
  | .array items => spotsOfItems 0 items
  | .object members => spotsOfMembers 0 members
  | _ => []

def spotsOfItems (n : Nat) : List Json → List Spot
  | [] => []
  | item :: rest => (spots item).map (Spot.below (.item n)) ++ spotsOfItems (n + 1) rest

def spotsOfMembers (n : Nat) : List (String × Json) → List Spot
  | [] => []
  | (key, value) :: rest =>
    .key [] n key :: (spots value).map (Spot.below (.member n key)) ++ spotsOfMembers (n + 1) rest

end

variable {value : Json} {spot other : Spot} {step : Step}

namespace Spot

theorem pathFrom_below (path : String) (step : Step) (spot : Spot) :
    (spot.below step).pathFrom path = spot.pathFrom (step.pathFrom path) := by
  cases spot <;> rfl

theorem text_below (step : Step) (spot : Spot) : (spot.below step).text = spot.text := by
  cases spot <;> rfl

theorem place_below (step : Step) (spot : Spot) :
    (spot.below step).place = step :: spot.place := by
  cases spot <;> rfl

theorem isKey_below (step : Step) (spot : Spot) : (spot.below step).isKey = spot.isKey := by
  cases spot <;> rfl

theorem Before.below (h : spot.Before other) : (spot.below step).Before (other.below step) := by
  simp only [Before, place_below, isKey_below, Json.earlier_cons_self, List.cons.injEq, true_and]
  exact h

theorem isOf_below : (spot.below step).IsOf value ↔
    ∃ child, (step, child) ∈ contents value ∧ spot.IsOf child := by
  cases spot with
  | leaf place s => exact Json.at_cons
  | key parent i name =>
      simp only [IsOf, Spot.below, List.cons_append, Json.at_cons]
      constructor
      · rintro ⟨part, child, hchild, hpart⟩
        exact ⟨child, hchild, part, hpart⟩
      · rintro ⟨child, hchild, part, hpart⟩
        exact ⟨part, child, hchild, hpart⟩

end Spot

-- What a walk collects is what stands at the spots, with their paths.

theorem textsOfItems_eq {items : List Json}
    (h : ∀ item ∈ items, ∀ path, texts path item =
      (spots item).map fun spot => (spot.pathFrom path, spot.text)) (path : String) (n : Nat) :
    textsOfItems path n items =
      (spotsOfItems n items).map fun spot => (spot.pathFrom path, spot.text) := by
  induction items generalizing n with
  | nil => rfl
  | cons item rest ih =>
      obtain ⟨hitem, hrest⟩ := List.forall_mem_cons.mp h
      rw [textsOfItems, spotsOfItems, ih hrest, hitem, List.map_append, List.map_map]
      simp only [Function.comp_def, Spot.pathFrom_below, Spot.text_below, Step.pathFrom]

theorem textsOfMembers_eq {members : List (String × Json)}
    (h : ∀ member ∈ members, ∀ path, texts path member.2 =
      (spots member.2).map fun spot => (spot.pathFrom path, spot.text)) (path : String) (n : Nat) :
    textsOfMembers path members =
      (spotsOfMembers n members).map fun spot => (spot.pathFrom path, spot.text) := by
  induction members generalizing n with
  | nil => rfl
  | cons member rest ih =>
      obtain ⟨key, value⟩ := member
      obtain ⟨hvalue, hrest⟩ := List.forall_mem_cons.mp h
      rw [textsOfMembers, spotsOfMembers, ih hrest (n + 1), hvalue, List.map_append, List.map_cons,
        List.map_map]
      simp only [Function.comp_def, Spot.pathFrom_below, Spot.text_below, Step.pathFrom]
      rfl

theorem texts_eq (path : String) (value : Json) :
    texts path value = (spots value).map fun spot => (spot.pathFrom path, spot.text) := by
  induction value generalizing path with
  | array items ih => exact textsOfItems_eq (fun item hitem path => ih item hitem path) path 0
  | object members ih =>
      exact textsOfMembers_eq (fun member hmember path => ih member hmember path) path 0
  | _ => rfl

-- The spots of a container are those of what it holds, each behind the key that leads there.

def keySpot : Step → List Spot
  | .item _ => []
  | .member i key => [.key [] i key]

def spotsBehind (entry : Step × Json) : List Spot :=
  keySpot entry.1 ++ (spots entry.2).map (Spot.below entry.1)

theorem spotsOfItems_eq (n : Nat) (items : List Json) :
    spotsOfItems n items = (itemEntries n items).flatMap spotsBehind := by
  induction items generalizing n with
  | nil => rfl
  | cons item rest ih =>
      rw [spotsOfItems, ih, Json.itemEntries_cons, List.flatMap_cons]
      rfl

theorem spotsOfMembers_eq (n : Nat) (members : List (String × Json)) :
    spotsOfMembers n members = (memberEntries n members).flatMap spotsBehind := by
  induction members generalizing n with
  | nil => rfl
  | cons member rest ih =>
      rw [spotsOfMembers, ih, Json.memberEntries_cons, List.flatMap_cons]
      rfl

theorem spots_container (h : value.isLeaf = false) :
    spots value = (contents value).flatMap spotsBehind := by
  cases value with
  | array items => rw [spots, spotsOfItems_eq, contents]
  | object members => rw [spots, spotsOfMembers_eq, contents]
  | _ => contradiction

theorem mem_spotsBehind {entry : Step × Json} : spot ∈ spotsBehind entry ↔
    (∃ i key, entry.1 = .member i key ∧ spot = .key [] i key) ∨
      ∃ inner ∈ spots entry.2, inner.below entry.1 = spot := by
  obtain ⟨step, child⟩ := entry
  rw [spotsBehind, List.mem_append, List.mem_map]
  refine or_congr_left ?_
  cases step with
  | item i => simp [keySpot]
  | member i key => simp [keySpot]

theorem place_of_mem_spotsBehind {entry : Step × Json} (h : spot ∈ spotsBehind entry) :
    ∃ rest, spot.place = entry.1 :: rest := by
  rcases mem_spotsBehind.mp h with ⟨i, key, hstep, rfl⟩ | ⟨inner, -, rfl⟩
  · exact ⟨[], hstep ▸ rfl⟩
  · exact ⟨inner.place, Spot.place_below _ inner⟩

theorem place_eq_nil_of_leaf (h : value.isLeaf = true) {place : List Step} {part : Json}
    (hpart : At value place part) : place = [] := by
  cases hpart with
  | here => rfl
  | item => contradiction
  | member => contradiction

theorem spots_leaf (h : value.isLeaf = true) : spot ∈ spots value ↔ spot.IsOf value := by
  have hlisted : spot ∈ spots value ↔ ∃ s, value = .text s ∧ spot = .leaf [] s := by
    cases value with
    | text s => simp [spots]
    | array items => contradiction
    | object members => contradiction
    | _ => simp [spots]
  rw [hlisted]
  constructor
  · rintro ⟨s, rfl, rfl⟩
    exact .here _
  · intro hspot
    cases spot with
    | leaf place s =>
        obtain rfl := place_eq_nil_of_leaf h hspot
        exact ⟨s, (Json.at_nil.mp hspot).symm, rfl⟩
    | key parent i name =>
        obtain ⟨part, hpart⟩ := hspot
        exact absurd (place_eq_nil_of_leaf h hpart) (by simp)

-- Nothing but the texts and keys of a value is listed, and none of them is left out.
theorem mem_spots : spot ∈ spots value ↔ spot.IsOf value := by
  induction value using Json.induct_contents generalizing spot with
  | h value ih =>
      cases hleaf : value.isLeaf with
      | true => exact spots_leaf hleaf
      | false =>
          rw [spots_container hleaf, List.mem_flatMap]
          constructor
          · rintro ⟨⟨step, child⟩, hchild, hspot⟩
            rcases mem_spotsBehind.mp hspot with ⟨i, key, rfl, rfl⟩ | ⟨inner, hinner, rfl⟩
            · exact ⟨child, Json.at_cons.mpr ⟨child, hchild, .here child⟩⟩
            · exact Spot.isOf_below.mpr ⟨child, hchild, (ih _ hchild).mp hinner⟩
          · intro hspot
            have hbelow : ∀ step inner, Spot.below step inner = spot →
                ∃ entry ∈ contents value, spot ∈ spotsBehind entry := by
              rintro step inner rfl
              obtain ⟨child, hchild, hinner⟩ := Spot.isOf_below.mp hspot
              exact ⟨_, hchild, mem_spotsBehind.mpr (.inr ⟨inner, (ih _ hchild).mpr hinner, rfl⟩)⟩
            match spot with
            | .leaf (step :: place) s => exact hbelow step (.leaf place s) rfl
            | .key (step :: parent) i name => exact hbelow step (.key parent i name) rfl
            | .leaf [] s =>
                obtain rfl := Json.at_nil.mp hspot
                contradiction
            | .key [] i name =>
                obtain ⟨part, hpart⟩ := hspot
                obtain ⟨child, hchild, -⟩ := Json.at_cons.mp hpart
                exact ⟨_, hchild, mem_spotsBehind.mpr (.inl ⟨i, name, rfl, rfl⟩)⟩

theorem pairwise_spotsBehind {entry : Step × Json} (h : (spots entry.2).Pairwise Spot.Before) :
    (spotsBehind entry).Pairwise Spot.Before := by
  obtain ⟨step, child⟩ := entry
  have hbehind : ((spots child).map (Spot.below step)).Pairwise Spot.Before :=
    h.map _ fun _ _ hbefore => hbefore.below
  cases step with
  | item i => exact hbehind
  | member i key =>
      refine List.pairwise_cons.mpr ⟨fun spot hspot => ?_, hbehind⟩
      obtain ⟨inner, -, rfl⟩ := List.mem_map.mp hspot
      -- the value may be a text itself, at the same place
      cases inner with
      | leaf place s =>
          cases place with
          | nil => exact .inr ⟨rfl, rfl, rfl⟩
          | cons first rest => exact .inl (Json.earlier_cons_self.mpr Json.earlier_nil)
      | key parent j name =>
          refine .inl (Json.earlier_cons_self.mpr ?_)
          cases parent with
          | nil => exact Json.earlier_nil
          | cons first rest => exact Json.earlier_nil

-- They are listed in their order.
theorem pairwise_spots (h : Json.Canonical value) : (spots value).Pairwise Spot.Before := by
  induction value using Json.induct_contents with
  | h value ih =>
      cases hleaf : value.isLeaf with
      | false =>
          rw [spots_container hleaf, List.pairwise_flatMap]
          refine ⟨fun entry hentry => ?_, (Json.pairwise_contents h).imp ?_⟩
          · exact pairwise_spotsBehind (ih entry hentry (h.of_mem_contents hentry))
          · intro one two hbefore spot hspot other hother
            obtain ⟨first, hfirst⟩ := place_of_mem_spotsBehind hspot
            obtain ⟨second, hsecond⟩ := place_of_mem_spotsBehind hother
            refine .inl ?_
            rw [hfirst, hsecond]
            exact Json.earlier_of_before hbefore
      | true =>
          cases value with
          | text s => exact List.pairwise_singleton _ _
          | array items => contradiction
          | object members => contradiction
          | _ => exact .nil

end RequestGuard.Validation
