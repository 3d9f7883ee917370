import RequestGuard.Proofs.Json.Occurrence
import RequestGuard.Proofs.Json.Reading

namespace RequestGuard.Json

-- At most so many containers of a value lie in one another.
def Nests (nesting : Nat) (value : Json) : Prop :=
  ∀ depth part, Occurs depth part value → part.isLeaf = false → depth < nesting

theorem nests_array {nesting : Nat} {items : List Json} :
    Nests nesting (array items) ↔
      ∃ inner, nesting = inner + 1 ∧ ∀ item ∈ items, Nests inner item := by
  unfold Nests
  rw [forall_occurs_array]
  constructor
  · rintro ⟨hself, hitems⟩
    obtain ⟨inner, rfl⟩ := Nat.exists_eq_add_of_lt (hself rfl)
    refine ⟨inner, by omega, fun item hitem depth part hpart hleaf => ?_⟩
    have h := hitems item hitem depth part hpart hleaf
    omega
  · rintro ⟨inner, rfl, hitems⟩
    exact ⟨fun _ => Nat.succ_pos inner, fun item hitem depth part hpart hleaf =>
      Nat.succ_lt_succ (hitems item hitem depth part hpart hleaf)⟩

theorem nests_object {nesting : Nat} {members : List (String × Json)} :
    Nests nesting (object members) ↔
      ∃ inner, nesting = inner + 1 ∧ ∀ member ∈ members, Nests inner member.2 := by
  unfold Nests
  rw [forall_occurs_object]
  constructor
  · rintro ⟨hself, hmembers⟩
    obtain ⟨inner, rfl⟩ := Nat.exists_eq_add_of_lt (hself rfl)
    refine ⟨inner, by omega, fun member hmember depth part hpart hleaf => ?_⟩
    have h := hmembers member hmember depth part hpart hleaf
    omega
  · rintro ⟨inner, rfl, hmembers⟩
    exact ⟨fun _ => Nat.succ_pos inner, fun member hmember depth part hpart hleaf =>
      Nat.succ_lt_succ (hmembers member hmember depth part hpart hleaf)⟩

theorem nests_leaf {nesting : Nat} {value : Json} (h : value.isLeaf = true) :
    Nests nesting value := by
  intro depth part hpart hleaf
  obtain ⟨-, rfl⟩ := (occurs_leaf h).mp hpart
  exact absurd (h.symm.trans hleaf) (by decide)

-- A reader goes no deeper than it is allowed to.
theorem nests_readValue {nesting : Nat} {input rest : Bytes} {value : Json}
    (h : readValue nesting input = .ok (value, rest)) : Nests nesting value := by
  unfold readValue at h
  induction nesting using Nat.strongRecOn generalizing input value rest with
  | ind nesting ih =>
      rcases readValueWith_eq_ok h with hleaf | ⟨inner, _, _, items, rfl, rfl, hitems⟩ |
        ⟨inner, _, _, members, rfl, rfl, hmembers⟩
      · exact nests_leaf hleaf
      · exact nests_array.mpr
          ⟨inner, rfl, readItems_forall (ih inner (Nat.lt_succ_self inner)) hitems⟩
      · refine nests_object.mpr ⟨inner, rfl, ?_⟩
        refine readMembers_preserves (P := fun members => ∀ pair ∈ members, Nests inner pair.2)
          (fun {gathered _ more _} hgathered hentry => ?_)
          (fun pair hpair => absurd hpair List.not_mem_nil) hmembers
        obtain ⟨key, v, after, hvalue, rfl⟩ := readMember_eq_ok hentry
        intro pair hpair
        rcases mem_member hpair with rfl | hpair
        · exact ih inner (Nat.lt_succ_self inner) hvalue
        · exact hgathered pair hpair

theorem nests_parse {text : Bytes} {value : Json} (h : parse text = .ok value) :
    Nests nestingLimit value := by
  unfold parse complete at h
  split at h
  · contradiction
  · next a rest hread =>
      split at h
      · cases h
        exact nests_readValue hread
      · contradiction

-- Whole numbers of 64 bits.
def IsWord64 (n : Int) : Prop :=
  -0x8000000000000000 ≤ n ∧ n ≤ 0xFFFFFFFFFFFFFFFF

-- All numbers in a value are such.
def WholeNumbers (value : Json) : Prop :=
  ∀ n, IsPart (number n) value → ∃ i, n = .integer i ∧ IsWord64 i

theorem WholeNumbers.item {items : List Json} (h : WholeNumbers (array items)) :
    ∀ item ∈ items, WholeNumbers item :=
  fun item hitem n hn => h n (isPart_array.mpr (.inr ⟨item, hitem, hn⟩))

theorem WholeNumbers.member {members : List (String × Json)} (h : WholeNumbers (object members)) :
    ∀ member ∈ members, WholeNumbers member.2 :=
  fun member hmember n hn => h n (isPart_object.mpr (.inr ⟨member, hmember, hn⟩))

end RequestGuard.Json
