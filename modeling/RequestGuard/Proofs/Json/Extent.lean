import RequestGuard.Proofs.Json.RoundTrip
import RequestGuard.Proofs.Markup.Growth
import RequestGuard.Proofs.Validation.Cleaned
import Mathlib.Algebra.Order.BigOperators.Group.List

namespace RequestGuard.Json

open Markup (weight growth)
open Utf8 (encode)

-- The bytes that a character takes between quotes.
def quotedSize (c : Char) : Nat :=
  weight Char.utf8Size (escape c)

-- The bytes that a written number takes.
def numberSize (n : Number) : Nat :=
  (bytesOf n.written).length

section Extent

variable (factor : Nat) (size : Number → Nat)

mutual

-- The bytes that a written value takes if what stands between quotes takes so many times its own
-- and each number what it is given.
def extent : Json → Nat
  | null => 4
  | bool true => 4
  | bool false => 5
  | number n => size n
  | text s => factor * weight quotedSize s.toList + 2
  | array items => extentOfItems items - 1 + 2
  | object members => extentOfMembers members - 1 + 2

-- A comma is counted behind every item, the last one too.
def extentOfItems : List Json → Nat
  | [] => 0
  | item :: rest => extent item + 1 + extentOfItems rest

def extentOfMembers : List (String × Json) → Nat
  | [] => 0
  | (key, value) :: rest =>
    factor * weight quotedSize key.toList + 3 + extent value + 1 + extentOfMembers rest

end

-- A key is followed by a colon.
def memberExtent (member : String × Json) : Nat :=
  factor * weight quotedSize member.1.toList + 3 + extent factor size member.2

end Extent

variable {factor : Nat} {size : Number → Nat} {escape : Bool} {bounds : ValidationSettings}

theorem extentOfItems_eq_sum (items : List Json) :
    extentOfItems factor size items = (items.map fun item => extent factor size item + 1).sum := by
  induction items with
  | nil => rfl
  | cons item rest ih => rw [extentOfItems, ih, List.map_cons, List.sum_cons]

theorem extentOfMembers_eq_sum (members : List (String × Json)) :
    extentOfMembers factor size members =
      (members.map fun member => memberExtent factor size member + 1).sum := by
  induction members with
  | nil => rfl
  | cons member rest ih =>
      rw [extentOfMembers, ih, List.map_cons, List.sum_cons]
      rfl

-- What is written takes its extent.

theorem length_encode (text : List Char) : (encode text).length = weight Char.utf8Size text := by
  induction text with
  | nil => rfl
  | cons c rest ih =>
      rw [Utf8.encode_cons, List.length_append, String.length_utf8EncodeChar, ih,
        Markup.weight_cons]

theorem length_encode_writeText (s : String) :
    (encode (writeText s)).length = weight quotedSize s.toList + 2 := by
  have hquote : weight Char.utf8Size ['"'] = 1 := by decide
  rw [length_encode, writeText, Markup.weight_append, Markup.weight_append, Markup.weight_flatMap,
    hquote]
  show 1 + weight quotedSize s.toList + 1 = _
  omega

theorem length_encode_separated (parts : List (List Char)) :
    (encode (separated parts)).length =
      (parts.map fun part => (encode part).length + 1).sum - 1 := by
  cases parts with
  | nil => rfl
  | cons part rest =>
      have hothers : (others (rest.map encode)).length =
          (rest.map fun part => (encode part).length + 1).sum := by
        simp [others, List.length_flatMap, Function.comp_def]
      rw [encode_separated, List.length_append, hothers, List.map_cons, List.sum_cons]
      omega

theorem writeMembers_eq_map (members : List (String × Json)) :
    writeMembers members = members.map fun member => writeText member.1 ++ ':' :: write member.2 := by
  induction members with
  | nil => rfl
  | cons member rest ih => rw [writeMembers, ih, List.map_cons]

theorem length_encode_bracketed {left right : Char} (hleft : left.utf8Size = 1)
    (hright : right.utf8Size = 1) (inner : List Char) :
    (encode ([left] ++ inner ++ [right])).length = (encode inner).length + 2 := by
  simp only [length_encode, Markup.weight_append, Markup.weight_cons, Markup.weight_nil, hleft,
    hright]
  omega

theorem length_encode_write (value : Json) :
    (encode value.write).length = extent 1 numberSize value := by
  induction value with
  | null => decide
  | bool b => cases b <;> decide
  | number n => rfl
  | text s => rw [write, length_encode_writeText, extent, Nat.one_mul]
  | array items ih =>
      have hitems : (writeItems items).map (fun part => (encode part).length + 1) =
          items.map fun item => extent 1 numberSize item + 1 := by
        rw [writeItems_eq_map, List.map_map]
        apply List.map_congr_left
        intro item hitem
        simp only [Function.comp_def, ih item hitem]
      rw [write, length_encode_bracketed (by decide) (by decide), length_encode_separated, hitems,
        extent, extentOfItems_eq_sum]
  | object members ih =>
      have hmembers : (writeMembers members).map (fun part => (encode part).length + 1) =
          members.map fun member => memberExtent 1 numberSize member + 1 := by
        rw [writeMembers_eq_map, List.map_map]
        apply List.map_congr_left
        intro member hmember
        have hcolon : (String.utf8EncodeChar ':').length = 1 := by decide
        simp only [Function.comp_def, Utf8.encode_append, Utf8.encode_cons, List.length_append,
          length_encode_writeText, ih member hmember, hcolon, memberExtent]
        omega
      rw [write, length_encode_bracketed (by decide) (by decide), length_encode_separated,
        hmembers, extent, extentOfMembers_eq_sum]

-- Only the numbers in a value count.
theorem extent_congr {other : Number → Nat} {value : Json}
    (h : ∀ n, IsPart (number n) value → size n = other n) :
    extent factor size value = extent factor other value := by
  induction value with
  | null => rfl
  | bool b => cases b <;> rfl
  | number n => exact h n ((isPart_leaf rfl).mpr rfl)
  | text s => rfl
  | array items ih =>
      have hitems : ∀ item ∈ items, extent factor size item = extent factor other item :=
        fun item hitem => ih item hitem fun n hn => h n (isPart_array.mpr (.inr ⟨item, hitem, hn⟩))
      have hmap := List.map_congr_left fun item hitem => congrArg (· + 1) (hitems item hitem)
      rw [extent, extent, extentOfItems_eq_sum, extentOfItems_eq_sum, hmap]
  | object members ih =>
      have hmembers : ∀ member ∈ members,
          memberExtent factor size member = memberExtent factor other member := by
        intro member hmember
        rw [memberExtent, memberExtent, ih member hmember fun n hn =>
          h n (isPart_object.mpr (.inr ⟨member, hmember, hn⟩))]
      have hmap := List.map_congr_left fun member hmember =>
        congrArg (· + 1) (hmembers member hmember)
      rw [extent, extent, extentOfMembers_eq_sum, extentOfMembers_eq_sum, hmap]


-- What becomes of the contents bounds what becomes of the container.

theorem extentOfItems_map_le {larger : Nat} {f : Json → Json} {items : List Json}
    (h : ∀ item ∈ items, extent factor size (f item) ≤ extent larger size item) :
    extentOfItems factor size (items.map f) ≤ extentOfItems larger size items := by
  rw [extentOfItems_eq_sum, extentOfItems_eq_sum, List.map_map]
  apply List.sum_le_sum
  intro item hitem
  exact Nat.add_le_add_right (h item hitem) 1

theorem extentOfMembers_map_le {larger : Nat} {f : String × Json → String × Json}
    {members : List (String × Json)}
    (hkey : ∀ member ∈ members, factor * weight quotedSize (f member).1.toList ≤
      larger * weight quotedSize member.1.toList)
    (hvalue : ∀ member ∈ members,
      extent factor size (f member).2 ≤ extent larger size member.2) :
    extentOfMembers factor size (members.map f) ≤ extentOfMembers larger size members := by
  rw [extentOfMembers_eq_sum, extentOfMembers_eq_sum, List.map_map]
  apply List.sum_le_sum
  intro member hmember
  have hkey := hkey member hmember
  have hvalue := hvalue member hmember
  simp only [Function.comp_apply, memberExtent]
  omega

-- Cutting makes nothing longer.

theorem shortText_sublist (s : String) : (shortText bounds s).toList.Sublist s.toList := by
  unfold shortText
  split
  · rw [String.toList_ofList]
    exact List.take_sublist _ _
  · exact .refl _

theorem extent_shortened_le (value : Json) :
    extent factor size (shortened bounds value) ≤ extent factor size value := by
  induction value with
  | text s =>
      have hcut : weight quotedSize (shortText bounds s).toList ≤ weight quotedSize s.toList :=
        Markup.weight_le_of_sublist (shortText_sublist s)
      exact Nat.add_le_add_right (Nat.mul_le_mul_left factor hcut) 2
  | array items ih =>
      have hitems := extentOfItems_map_le ih
      rw [shortened, shortenedItems_eq_map, extent, extent]
      omega
  | object members ih =>
      have hmembers := extentOfMembers_map_le
        (f := fun member => (member.1, shortened bounds member.2)) (fun _ _ => Nat.le_refl _) ih
      rw [shortened, shortenedMembers_eq_map, extent, extent]
      omega
  | _ => exact Nat.le_refl _

-- A member whose key is there already takes the place of another.

theorem sum_member_le (f : String × Json → Nat) (key : String) (value : Json)
    (members : List (String × Json)) :
    ((member key value members).map f).sum ≤ f (key, value) + (members.map f).sum := by
  induction members with
  | nil => exact Nat.le_refl _
  | cons head rest ih =>
      obtain ⟨k, v⟩ := head
      simp only [member]
      split_ifs
      all_goals
        simp only [List.map_cons, List.sum_cons]
        omega

theorem sum_gathered_le (f : String × Json → Nat) (members pairs : List (String × Json)) :
    ((gathered members pairs).map f).sum ≤ (members.map f).sum + (pairs.map f).sum := by
  induction pairs generalizing members with
  | nil => exact Nat.le_refl _
  | cons head rest ih =>
      have hrest := ih (member head.1 head.2 members)
      have hmember : ((member head.1 head.2 members).map f).sum ≤ f head + (members.map f).sum :=
        sum_member_le f head.1 head.2 members
      rw [List.map_cons, List.sum_cons]
      show ((gathered (member head.1 head.2 members) rest).map f).sum ≤ _
      omega

theorem extentOfMembers_member_le (key : String) (value : Json) (members : List (String × Json)) :
    extentOfMembers factor size (member key value members) ≤
      memberExtent factor size (key, value) + 1 + extentOfMembers factor size members := by
  rw [extentOfMembers_eq_sum, extentOfMembers_eq_sum]
  exact sum_member_le (fun member => memberExtent factor size member + 1) key value members

theorem extentOfMembers_member_pos (key : String) (value : Json)
    (members : List (String × Json)) :
    1 ≤ extentOfMembers factor size (member key value members) := by
  cases members with
  | nil =>
      simp only [member, extentOfMembers]
      omega
  | cons head rest =>
      simp only [member]
      split_ifs
      all_goals
        simp only [extentOfMembers]
        omega

theorem extentOfMembers_gathered_le (pairs : List (String × Json)) :
    extentOfMembers factor size (gathered [] pairs) ≤ extentOfMembers factor size pairs := by
  have hsum := sum_gathered_le (fun member => memberExtent factor size member + 1) [] pairs
  rw [List.map_nil, List.sum_nil, Nat.zero_add] at hsum
  rwa [extentOfMembers_eq_sum, extentOfMembers_eq_sum]

theorem cleanItems_eq_map (items : List Json) :
    (cleanItems escape items).1 = items.map fun item => (clean escape item).1 := by
  induction items with
  | nil => rfl
  | cons item rest ih => rw [List.map_cons, ← ih, cleanItems]

theorem cleanMembers_eq_map (members : List (String × Json)) :
    (cleanMembers escape members).1 =
      members.map fun member => (cleaned escape member.1, (clean escape member.2).1) := by
  induction members with
  | nil => rfl
  | cons member rest ih => rw [List.map_cons, ← ih, cleanMembers]

-- No entity takes more than six times the bytes of its character: a quote has two as it is.
theorem quotedSize_entity_le :
    ∀ mark ∈ Markup.marks, weight quotedSize mark.1 ≤ 6 * quotedSize mark.2 := by
  decide

-- Cleaning makes no text longer than so many times what it was.
theorem extent_clean_le (value : Json) :
    extent 1 size (clean escape value).1 ≤ extent (growth escape) size value := by
  have htext : ∀ s : String, 1 * weight quotedSize (cleaned escape s).toList ≤
      growth escape * weight quotedSize s.toList := by
    intro s
    rw [Nat.one_mul]
    exact Markup.weight_cleaned_le_growth escape quotedSize_entity_le s
  induction value with
  | null => exact Nat.le_refl _
  | bool b => cases b <;> exact Nat.le_refl _
  | number n => exact Nat.le_refl _
  | text s => exact Nat.add_le_add_right (htext s) 2
  | array items ih =>
      have hitems := extentOfItems_map_le ih
      rw [← cleanItems_eq_map] at hitems
      simp only [clean, extent]
      omega
  | object members ih =>
      have hmembers := extentOfMembers_map_le
        (f := fun member => (cleaned escape member.1, (clean escape member.2).1))
        (fun member _ => htext member.1) ih
      rw [← cleanMembers_eq_map] at hmembers
      have hgathered : extentOfMembers 1 size (gathered [] (cleanMembers escape members).1) ≤
          extentOfMembers 1 size (cleanMembers escape members).1 :=
        extentOfMembers_gathered_le _
      simp only [clean, ofMembers_eq, extent]
      omega

end RequestGuard.Json
