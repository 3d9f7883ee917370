import RequestGuard.Json.Value
import Mathlib.Data.List.Sort
import Mathlib.Data.String.Basic

namespace RequestGuard.Json

theorem sizeOf_value_lt {members : List (String × Json)} {member : String × Json}
    (h : member ∈ members) : sizeOf member.2 < 1 + sizeOf members := by
  obtain ⟨key, value⟩ := member
  have hmember := List.sizeOf_lt_of_mem h
  rw [Prod.mk.sizeOf_spec] at hmember
  show sizeOf value < 1 + sizeOf members
  omega

@[elab_as_elim, induction_eliminator]
theorem induct {motive : Json → Prop} (null : motive null) (bool : ∀ b, motive (bool b))
    (number : ∀ n, motive (number n)) (text : ∀ s, motive (text s))
    (array : ∀ items, (∀ item ∈ items, motive item) → motive (array items))
    (object : ∀ members, (∀ member ∈ members, motive member.2) → motive (object members))
    (value : Json) : motive value :=
  match value with
  | .null => null
  | .bool b => bool b
  | .number n => number n
  | .text s => text s
  | .array items => array items fun item _ => induct null bool number text array object item
  | .object members =>
    object members fun member hmember =>
      have := sizeOf_value_lt hmember
      induct null bool number text array object member.2

def isLeaf : Json → Bool
  | array _ => false
  | object _ => false
  | _ => true

-- Each key comes before those that follow it, so none comes twice.
def Ascending (members : List (String × Json)) : Prop :=
  members.Pairwise (·.1 < ·.1)

inductive Canonical : Json → Prop where
  | null : Canonical null
  | bool (b : Bool) : Canonical (bool b)
  | number (n : Number) : Canonical (number n)
  | text (s : String) : Canonical (text s)
  | array {items : List Json} (hitems : ∀ item ∈ items, Canonical item) : Canonical (array items)
  | object {members : List (String × Json)} (hkeys : Ascending members)
      (hvalues : ∀ member ∈ members, Canonical member.2) : Canonical (object members)

theorem canonical_of_isLeaf {value : Json} (h : value.isLeaf = true) : Canonical value := by
  cases value with
  | null => exact .null
  | bool b => exact .bool b
  | number n => exact .number n
  | text s => exact .text s
  | array items => contradiction
  | object members => contradiction

section Member

variable {key : String} {value : Json} {members : List (String × Json)}

theorem mem_member {pair : String × Json} (h : pair ∈ member key value members) :
    pair = (key, value) ∨ pair ∈ members := by
  induction members with
  | nil => exact .inl (List.mem_singleton.mp h)
  | cons head rest ih =>
      obtain ⟨k, v⟩ := head
      simp only [member] at h
      split_ifs at h with hlt heq
      · exact List.mem_cons.mp h
      · rcases List.mem_cons.mp h with hpair | hrest
        · exact .inl hpair
        · exact .inr (List.mem_cons_of_mem _ hrest)
      · rcases List.mem_cons.mp h with hpair | hrest
        · exact .inr (hpair ▸ List.mem_cons_self)
        · exact (ih hrest).imp id (List.mem_cons_of_mem _)

theorem mem_member_iff {pair : String × Json} (h : Ascending members) :
    pair ∈ member key value members ↔ pair = (key, value) ∨ pair ∈ members ∧ pair.1 ≠ key := by
  induction members with
  | nil => simp [member]
  | cons head rest ih =>
      obtain ⟨k, v⟩ := head
      obtain ⟨hhead, hrest⟩ := List.pairwise_cons.mp h
      simp only [member]
      split_ifs with hlt heq
      · rw [List.mem_cons]
        refine or_congr_right (iff_self_and.mpr fun hpair => ?_)
        rcases List.mem_cons.mp hpair with rfl | hpair
        · exact ne_of_gt hlt
        · exact ne_of_gt (lt_trans hlt (hhead pair hpair))
      · subst heq
        rw [List.mem_cons, List.mem_cons]
        refine or_congr_right ⟨fun hpair => ⟨.inr hpair, ne_of_gt (hhead pair hpair)⟩, ?_⟩
        rintro ⟨rfl | hpair, hne⟩
        · exact absurd rfl hne
        · exact hpair
      · rw [List.mem_cons, List.mem_cons, ih hrest]
        constructor
        · rintro (rfl | rfl | ⟨hpair, hne⟩)
          · exact .inr ⟨.inl rfl, Ne.symm heq⟩
          · exact .inl rfl
          · exact .inr ⟨.inr hpair, hne⟩
        · rintro (rfl | ⟨rfl | hpair, hne⟩)
          · exact .inr (.inl rfl)
          · exact .inl rfl
          · exact .inr (.inr ⟨hpair, hne⟩)

theorem ascending_member (h : Ascending members) : Ascending (member key value members) := by
  induction members with
  | nil => exact List.pairwise_singleton _ _
  | cons head rest ih =>
      obtain ⟨k, v⟩ := head
      obtain ⟨hhead, hrest⟩ := List.pairwise_cons.mp h
      simp only [member]
      split_ifs with hlt heq
      · refine List.pairwise_cons.mpr ⟨fun pair hpair => ?_, h⟩
        rcases List.mem_cons.mp hpair with rfl | hpair
        · exact hlt
        · exact lt_trans hlt (hhead pair hpair)
      · exact List.pairwise_cons.mpr ⟨fun pair hpair => heq ▸ hhead pair hpair, hrest⟩
      · have hgt : k < key := lt_of_le_of_ne (not_lt.mp hlt) (Ne.symm heq)
        refine List.pairwise_cons.mpr ⟨fun pair hpair => ?_, ih hrest⟩
        rcases mem_member hpair with rfl | hpair
        · exact hgt
        · exact hhead pair hpair

theorem member_last (h : ∀ pair ∈ members, pair.1 < key) :
    member key value members = members ++ [(key, value)] := by
  induction members with
  | nil => rfl
  | cons head rest ih =>
      obtain ⟨k, v⟩ := head
      obtain ⟨hhead, hrest⟩ := List.forall_mem_cons.mp h
      rw [member, if_neg (not_lt.mpr (le_of_lt hhead)), if_neg (ne_of_gt hhead), ih hrest,
        List.cons_append]

end Member

-- The members of the object that some pairs make up.
def gathered (members pairs : List (String × Json)) : List (String × Json) :=
  pairs.foldl (fun members (k, v) => member k v members) members

theorem ofMembers_eq (pairs : List (String × Json)) :
    ofMembers pairs = object (gathered [] pairs) := rfl

theorem mem_gathered {members pairs : List (String × Json)} {pair : String × Json}
    (h : pair ∈ gathered members pairs) : pair ∈ members ∨ pair ∈ pairs := by
  induction pairs generalizing members with
  | nil => exact .inl h
  | cons head rest ih =>
      rcases ih h with hmember | hrest
      · rcases mem_member hmember with rfl | hmember
        · exact .inr List.mem_cons_self
        · exact .inl hmember
      · exact .inr (List.mem_cons_of_mem _ hrest)

theorem ascending_gathered {members : List (String × Json)} (h : Ascending members)
    (pairs : List (String × Json)) : Ascending (gathered members pairs) := by
  induction pairs generalizing members with
  | nil => exact h
  | cons head rest ih => exact ih (ascending_member h)

-- A pair whose key does not come again.
def LastOfKey (pairs : List (String × α)) (pair : String × α) : Prop :=
  ∃ before after, pairs = before ++ pair :: after ∧ ∀ later ∈ after, later.1 ≠ pair.1

theorem lastOfKey_nil {pair : String × α} : ¬LastOfKey [] pair := by
  rintro ⟨before, after, h, -⟩
  exact absurd h.symm (by simp)

theorem lastOfKey_cons {head pair : String × α} {rest : List (String × α)} :
    LastOfKey (head :: rest) pair ↔
      LastOfKey rest pair ∨ pair = head ∧ ∀ later ∈ rest, later.1 ≠ pair.1 := by
  constructor
  · rintro ⟨before, after, heq, hafter⟩
    cases before with
    | nil =>
        obtain ⟨rfl, rfl⟩ := List.cons.inj heq
        exact .inr ⟨rfl, hafter⟩
    | cons first before =>
        obtain ⟨rfl, rfl⟩ := List.cons.inj heq
        exact .inl ⟨before, after, rfl, hafter⟩
  · rintro (⟨before, after, rfl, hafter⟩ | ⟨rfl, hrest⟩)
    · exact ⟨head :: before, after, rfl, hafter⟩
    · exact ⟨[], rest, rfl, hrest⟩

theorem exists_lastOfKey {pairs : List (String × α)} {pair : String × α} (h : pair ∈ pairs) :
    ∃ last, LastOfKey pairs last ∧ last.1 = pair.1 := by
  induction pairs generalizing pair with
  | nil => exact absurd h List.not_mem_nil
  | cons head rest ih =>
      by_cases hagain : ∃ later ∈ rest, later.1 = pair.1
      · obtain ⟨later, hlater, hkey⟩ := hagain
        obtain ⟨last, hlast, hsame⟩ := ih hlater
        exact ⟨last, lastOfKey_cons.mpr (.inl hlast), hsame.trans hkey⟩
      · simp only [not_exists, not_and] at hagain
        rcases List.mem_cons.mp h with rfl | hrest
        · exact ⟨pair, lastOfKey_cons.mpr (.inr ⟨rfl, hagain⟩), rfl⟩
        · exact absurd rfl (hagain pair hrest)

theorem lastOfKey_map {f : α → β} {pairs : List (String × α)} {key : String} {b : β} :
    LastOfKey (pairs.map fun pair => (pair.1, f pair.2)) (key, b) ↔
      ∃ a, f a = b ∧ LastOfKey pairs (key, a) := by
  induction pairs with
  | nil => simp [lastOfKey_nil]
  | cons head rest ih =>
      obtain ⟨k, a⟩ := head
      simp only [List.map_cons, lastOfKey_cons, ih, Prod.mk.injEq, List.forall_mem_map]
      constructor
      · rintro (⟨c, rfl, hc⟩ | ⟨⟨rfl, rfl⟩, hrest⟩)
        · exact ⟨c, rfl, .inl hc⟩
        · exact ⟨a, rfl, .inr ⟨⟨rfl, rfl⟩, hrest⟩⟩
      · rintro ⟨c, rfl, hc | ⟨⟨rfl, rfl⟩, hrest⟩⟩
        · exact .inl ⟨c, rfl, hc⟩
        · exact .inr ⟨⟨rfl, rfl⟩, hrest⟩

theorem mem_gathered_ascending {members pairs : List (String × Json)} (h : Ascending members)
    {pair : String × Json} : pair ∈ gathered members pairs ↔
      LastOfKey pairs pair ∨ pair ∈ members ∧ ∀ later ∈ pairs, later.1 ≠ pair.1 := by
  induction pairs generalizing members with
  | nil => simp [gathered, lastOfKey_nil]
  | cons head rest ih =>
      show pair ∈ gathered (member head.1 head.2 members) rest ↔ _
      rw [ih (ascending_member h), mem_member_iff h, lastOfKey_cons, List.forall_mem_cons]
      constructor
      · rintro (hlast | ⟨rfl | ⟨hmem, hne⟩, hrest⟩)
        · exact .inl (.inl hlast)
        · exact .inl (.inr ⟨rfl, hrest⟩)
        · exact .inr ⟨hmem, Ne.symm hne, hrest⟩
      · rintro ((hlast | ⟨rfl, hrest⟩) | ⟨hmem, hne, hrest⟩)
        · exact .inl hlast
        · exact .inr ⟨.inl rfl, hrest⟩
        · exact .inr ⟨.inr ⟨hmem, Ne.symm hne⟩, hrest⟩

-- The last pair of a key is the one that stays.
theorem mem_gathered_iff {pairs : List (String × Json)} {pair : String × Json} :
    pair ∈ gathered [] pairs ↔ LastOfKey pairs pair := by
  rw [mem_gathered_ascending .nil]
  simp

theorem Ascending.eq_of_mem_iff {members others : List (String × Json)} (h : Ascending members)
    (hothers : Ascending others) (hmem : ∀ pair, pair ∈ members ↔ pair ∈ others) :
    members = others := by
  have : Std.Irrefl fun a b : String × Json => a.1 < b.1 := ⟨fun a => lt_irrefl a.1⟩
  have : Std.Antisymm fun a b : String × Json => a.1 < b.1 :=
    ⟨fun _ _ hlt hgt => absurd hgt (lt_asymm hlt)⟩
  exact List.Pairwise.eq_of_mem_iff h hothers hmem

theorem gathered_of_ascending {members pairs : List (String × Json)}
    (h : Ascending (members ++ pairs)) : gathered members pairs = members ++ pairs := by
  induction pairs generalizing members with
  | nil => exact (List.append_nil members).symm
  | cons head rest ih =>
      obtain ⟨key, value⟩ := head
      have hbefore : ∀ pair ∈ members, pair.1 < key := fun pair hpair =>
        (List.pairwise_append.mp h).2.2 pair hpair (key, value) List.mem_cons_self
      have hnext : gathered members ((key, value) :: rest) =
        gathered (member key value members) rest := rfl
      rw [hnext, member_last hbefore, ih]
      · simp
      · simpa using h

theorem ofMembers_of_ascending {members : List (String × Json)} (h : Ascending members) :
    ofMembers members = object members := by
  have hgathered : gathered [] members = members := gathered_of_ascending h
  rw [ofMembers_eq, hgathered]

theorem canonical_ofMembers {pairs : List (String × Json)}
    (h : ∀ pair ∈ pairs, Canonical pair.2) : Canonical (ofMembers pairs) := by
  rw [ofMembers_eq]
  refine .object (ascending_gathered List.Pairwise.nil pairs) fun pair hpair => ?_
  rcases mem_gathered hpair with hnil | hpair
  · exact absurd hnil List.not_mem_nil
  · exact h pair hpair

end RequestGuard.Json
