import RequestGuard.Proofs.Validation.Bounds
import RequestGuard.Validation.Request

namespace RequestGuard.Validation

open Json (IsPart isPart_leaf isPart_array isPart_object shortText shortened)

-- A text is a leaf of a value or a key of an object in it.
def Mentions (value : Json) (s : String) : Prop :=
  IsPart (.text s) value ∨
    ∃ members, IsPart (.object members) value ∧ ∃ member ∈ members, member.1 = s

theorem mentions_leaf {value : Json} (h : value.isLeaf = true) {s : String} :
    Mentions value s ↔ value = .text s := by
  simp only [Mentions, isPart_leaf h]
  constructor
  · rintro (hs | ⟨members, rfl, -⟩)
    · exact hs.symm
    · contradiction
  · exact fun hs => .inl hs.symm

theorem mentions_array {items : List Json} {s : String} :
    Mentions (.array items) s ↔ ∃ item ∈ items, Mentions item s := by
  simp only [Mentions, isPart_array]
  constructor
  · rintro ((heq | ⟨item, hitem, h⟩) | ⟨members, heq | ⟨item, hitem, h⟩, hkey⟩)
    · contradiction
    · exact ⟨item, hitem, .inl h⟩
    · contradiction
    · exact ⟨item, hitem, .inr ⟨members, h, hkey⟩⟩
  · rintro ⟨item, hitem, h | ⟨members, h, hkey⟩⟩
    · exact .inl (.inr ⟨item, hitem, h⟩)
    · exact .inr ⟨members, .inr ⟨item, hitem, h⟩, hkey⟩

theorem mentions_object {members : List (String × Json)} {s : String} :
    Mentions (.object members) s ↔ ∃ member ∈ members, member.1 = s ∨ Mentions member.2 s := by
  simp only [Mentions, isPart_object]
  constructor
  · rintro ((heq | ⟨member, hmember, h⟩) | ⟨others, heq | ⟨member, hmember, h⟩, hkey⟩)
    · contradiction
    · exact ⟨member, hmember, .inr (.inl h)⟩
    · cases heq
      obtain ⟨member, hmember, hkey⟩ := hkey
      exact ⟨member, hmember, .inl hkey⟩
    · exact ⟨member, hmember, .inr (.inr ⟨others, h, hkey⟩)⟩
  · rintro ⟨member, hmember, hkey | h | ⟨others, h, hkey⟩⟩
    · exact .inr ⟨members, .inl rfl, member, hmember, hkey⟩
    · exact .inl (.inr ⟨member, hmember, h⟩)
    · exact .inr ⟨others, .inr ⟨member, hmember, h⟩, hkey⟩

-- Texts are cut, keys are not.
theorem mentions_shortened {bounds : ValidationSettings} {value : Json} {s : String} :
    Mentions (shortened bounds value) s ↔
      (∃ t, IsPart (.text t) value ∧ s = shortText bounds t) ∨
        ∃ members, IsPart (.object members) value ∧ ∃ member ∈ members, member.1 = s := by
  rw [Mentions, Json.isPart_text_shortened]
  refine or_congr_right ?_
  constructor
  · rintro ⟨members, hmembers, member, hmember, hkey⟩
    obtain ⟨before, hbefore, rfl⟩ := Json.isPart_object_shortened.mp hmembers
    obtain ⟨original, horiginal, rfl⟩ := List.mem_map.mp hmember
    exact ⟨before, hbefore, original, horiginal, hkey⟩
  · rintro ⟨members, hmembers, member, hmember, hkey⟩
    refine ⟨_, Json.isPart_object_shortened.mpr ⟨members, hmembers, rfl⟩, ?_⟩
    exact ⟨_, List.mem_map.mpr ⟨member, hmember, rfl⟩, hkey⟩

-- What is collected from a value is what it mentions.

theorem mem_textsOfItems {items : List Json} {s : String} {P : Json → Prop}
    (h : ∀ item ∈ items, ∀ path, (∃ place, (place, s) ∈ texts path item) ↔ P item)
    (path : String) (n : Nat) :
    (∃ place, (place, s) ∈ textsOfItems path n items) ↔ ∃ item ∈ items, P item := by
  induction items generalizing n with
  | nil => simp [textsOfItems]
  | cons item rest ih =>
      obtain ⟨hitem, hrest⟩ := List.forall_mem_cons.mp h
      simp only [textsOfItems, List.mem_append, exists_or, hitem, ih hrest,
        List.exists_mem_cons_iff]

theorem mem_textsOfMembers {members : List (String × Json)} {s : String}
    {P : String × Json → Prop}
    (h : ∀ member ∈ members, ∀ path, (∃ place, (place, s) ∈ texts path member.2) ↔ P member)
    (path : String) :
    (∃ place, (place, s) ∈ textsOfMembers path members) ↔
      ∃ member ∈ members, member.1 = s ∨ P member := by
  induction members with
  | nil => simp [textsOfMembers]
  | cons member rest ih =>
      obtain ⟨key, value⟩ := member
      obtain ⟨hvalue, hrest⟩ := List.forall_mem_cons.mp h
      have hkey : (∃ place, (place, s) = (Path.keyOf path, key)) ↔ key = s := by
        simp [eq_comm]
      simp only [textsOfMembers, List.cons_append, List.mem_cons, List.mem_append, exists_or, hkey,
        hvalue, ih hrest, or_and_right, exists_eq_left, or_assoc]

theorem mem_texts (path : String) (value : Json) (s : String) :
    (∃ place, (place, s) ∈ texts path value) ↔ Mentions value s := by
  induction value generalizing path with
  | text t =>
      rw [mentions_leaf rfl]
      simp [texts, eq_comm]
  | array items ih =>
      rw [mentions_array]
      exact mem_textsOfItems (fun item hitem path => ih item hitem path) path 0
  | object members ih =>
      rw [mentions_object]
      exact mem_textsOfMembers (fun member hmember path => ih member hmember path) path
  | _ =>
      rw [mentions_leaf rfl]
      simp [texts]

end RequestGuard.Validation
