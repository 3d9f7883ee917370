import RequestGuard.Proofs.Json.Canonical

namespace RequestGuard.Json

-- A part of a value, with the number of containers in the value around it.
inductive Occurs : Nat → Json → Json → Prop where
  | here (value : Json) : Occurs 0 value value
  | item {depth : Nat} {part item : Json} {items : List Json} (hitem : item ∈ items)
      (h : Occurs depth part item) : Occurs (depth + 1) part (array items)
  | value {depth : Nat} {part : Json} {member : String × Json} {members : List (String × Json)}
      (hmember : member ∈ members) (h : Occurs depth part member.2) :
      Occurs (depth + 1) part (object members)

variable {depth : Nat} {part : Json}

theorem occurs_leaf {value : Json} (h : value.isLeaf = true) :
    Occurs depth part value ↔ depth = 0 ∧ part = value := by
  constructor
  · intro hpart
    cases hpart with
    | here => exact ⟨rfl, rfl⟩
    | item hitem _ => contradiction
    | value hmember _ => contradiction
  · rintro ⟨rfl, rfl⟩
    exact .here part

theorem occurs_array {items : List Json} :
    Occurs depth part (array items) ↔ (depth = 0 ∧ part = array items) ∨
      ∃ inner, depth = inner + 1 ∧ ∃ item ∈ items, Occurs inner part item := by
  constructor
  · intro hpart
    cases hpart with
    | here => exact .inl ⟨rfl, rfl⟩
    | item hitem h => exact .inr ⟨_, rfl, _, hitem, h⟩
  · rintro (⟨rfl, rfl⟩ | ⟨inner, rfl, item, hitem, h⟩)
    · exact .here _
    · exact .item hitem h

theorem occurs_object {members : List (String × Json)} :
    Occurs depth part (object members) ↔ (depth = 0 ∧ part = object members) ∨
      ∃ inner, depth = inner + 1 ∧ ∃ member ∈ members, Occurs inner part member.2 := by
  constructor
  · intro hpart
    cases hpart with
    | here => exact .inl ⟨rfl, rfl⟩
    | value hmember h => exact .inr ⟨_, rfl, _, hmember, h⟩
  · rintro (⟨rfl, rfl⟩ | ⟨inner, rfl, member, hmember, h⟩)
    · exact .here _
    · exact .value hmember h

-- What holds of every part, by what holds of the value and of the parts of its contents.

theorem forall_occurs_leaf {P : Nat → Json → Prop} {value : Json} (h : value.isLeaf = true) :
    (∀ depth part, Occurs depth part value → P depth part) ↔ P 0 value := by
  constructor
  · exact fun hall => hall 0 value (.here value)
  · intro hvalue depth part hpart
    obtain ⟨rfl, rfl⟩ := (occurs_leaf h).mp hpart
    exact hvalue

theorem forall_occurs_array {P : Nat → Json → Prop} {items : List Json} :
    (∀ depth part, Occurs depth part (array items) → P depth part) ↔ P 0 (array items) ∧
      ∀ item ∈ items, ∀ depth part, Occurs depth part item → P (depth + 1) part := by
  constructor
  · intro hall
    exact ⟨hall 0 _ (.here _), fun item hitem depth part h => hall _ _ (.item hitem h)⟩
  · rintro ⟨hself, hitems⟩ depth part hpart
    rcases occurs_array.mp hpart with ⟨rfl, rfl⟩ | ⟨inner, rfl, item, hitem, h⟩
    · exact hself
    · exact hitems item hitem inner part h

theorem forall_occurs_object {P : Nat → Json → Prop} {members : List (String × Json)} :
    (∀ depth part, Occurs depth part (object members) → P depth part) ↔ P 0 (object members) ∧
      ∀ member ∈ members, ∀ depth part, Occurs depth part member.2 → P (depth + 1) part := by
  constructor
  · intro hall
    exact ⟨hall 0 _ (.here _), fun member hmember depth part h => hall _ _ (.value hmember h)⟩
  · rintro ⟨hself, hmembers⟩ depth part hpart
    rcases occurs_object.mp hpart with ⟨rfl, rfl⟩ | ⟨inner, rfl, member, hmember, h⟩
    · exact hself
    · exact hmembers member hmember inner part h

-- However deep.
def IsPart (part value : Json) : Prop :=
  ∃ depth, Occurs depth part value

theorem isPart_leaf {value : Json} (h : value.isLeaf = true) :
    IsPart part value ↔ part = value := by
  simp [IsPart, occurs_leaf h]

theorem isPart_array {items : List Json} :
    IsPart part (array items) ↔ part = array items ∨ ∃ item ∈ items, IsPart part item := by
  constructor
  · rintro ⟨depth, h⟩
    rcases occurs_array.mp h with ⟨-, hself⟩ | ⟨inner, -, item, hitem, h⟩
    · exact .inl hself
    · exact .inr ⟨item, hitem, inner, h⟩
  · rintro (rfl | ⟨item, hitem, inner, h⟩)
    · exact ⟨0, .here _⟩
    · exact ⟨inner + 1, .item hitem h⟩

theorem isPart_object {members : List (String × Json)} :
    IsPart part (object members) ↔
      part = object members ∨ ∃ member ∈ members, IsPart part member.2 := by
  constructor
  · rintro ⟨depth, h⟩
    rcases occurs_object.mp h with ⟨-, hself⟩ | ⟨inner, -, member, hmember, h⟩
    · exact .inl hself
    · exact .inr ⟨member, hmember, inner, h⟩
  · rintro (rfl | ⟨member, hmember, inner, h⟩)
    · exact ⟨0, .here _⟩
    · exact ⟨inner + 1, .value hmember h⟩

end RequestGuard.Json
