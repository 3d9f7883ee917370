import RequestGuard.Proofs.Json.Cleaning
import RequestGuard.Proofs.Json.Nesting
import RequestGuard.Proofs.Validation.Texts

namespace RequestGuard.Json

variable {escape : Bool} {bounds : ValidationSettings}

-- Every part of a cleaned value is a cleaned part of the value. Where keys collide some parts are
-- lost, but none comes from elsewhere.
theorem exists_of_occurs_clean {depth : Nat} {part value : Json}
    (h : Occurs depth part (clean escape value).1) :
    ∃ before, Occurs depth before value ∧ part = (clean escape before).1 := by
  induction value generalizing depth with
  | array items ih =>
      rcases occurs_array.mp h with ⟨rfl, rfl⟩ | ⟨inner, rfl, item, hitem, h⟩
      · exact ⟨array items, .here _, rfl⟩
      · obtain ⟨original, horiginal, rfl⟩ := mem_cleanItems hitem
        obtain ⟨before, hbefore, rfl⟩ := ih original horiginal h
        exact ⟨before, .item horiginal hbefore, rfl⟩
  | object members ih =>
      rcases occurs_object.mp h with ⟨rfl, rfl⟩ | ⟨inner, rfl, member, hmember, h⟩
      · exact ⟨object members, .here _, rfl⟩
      · have hpair := (mem_gathered hmember).resolve_left List.not_mem_nil
        obtain ⟨original, horiginal, rfl⟩ := mem_cleanMembers hpair
        obtain ⟨before, hbefore, rfl⟩ := ih original horiginal h
        exact ⟨before, .value horiginal hbefore, rfl⟩
  | _ =>
      obtain ⟨rfl, rfl⟩ := (occurs_leaf rfl).mp h
      exact ⟨_, .here _, rfl⟩

theorem exists_of_isPart_clean {part value : Json} (h : IsPart part (clean escape value).1) :
    ∃ before, IsPart before value ∧ part = (clean escape before).1 := by
  obtain ⟨depth, h⟩ := h
  obtain ⟨before, hbefore, rfl⟩ := exists_of_occurs_clean h
  exact ⟨before, ⟨depth, hbefore⟩, rfl⟩

theorem isLeaf_clean (value : Json) : (clean escape value).1.isLeaf = value.isLeaf := by
  cases value with
  | _ => rfl

theorem isLeaf_shortened (value : Json) : (shortened bounds value).isLeaf = value.isLeaf := by
  cases value with
  | _ => rfl

-- Neither cleaning nor cutting puts containers deeper or makes numbers.

theorem Nests.clean {nesting : Nat} {value : Json} (h : Nests nesting value) :
    Nests nesting (clean escape value).1 := by
  intro depth part hpart hleaf
  obtain ⟨before, hbefore, rfl⟩ := exists_of_occurs_clean hpart
  exact h depth before hbefore ((isLeaf_clean before).symm.trans hleaf)

theorem Nests.shorten {nesting : Nat} {value : Json} (h : Nests nesting value) :
    Nests nesting (shortened bounds value) := by
  intro depth part hpart hleaf
  obtain ⟨before, hbefore, rfl⟩ := occurs_shortened.mp hpart
  exact h depth before hbefore ((isLeaf_shortened before).symm.trans hleaf)

theorem WholeNumbers.clean {value : Json} (h : WholeNumbers value) :
    WholeNumbers (clean escape value).1 := by
  intro n hn
  obtain ⟨before, hbefore, heq⟩ := exists_of_isPart_clean hn
  cases before with
  | number m =>
      cases heq
      exact h n hbefore
  | _ => contradiction

theorem WholeNumbers.shorten {value : Json} (h : WholeNumbers value) :
    WholeNumbers (shortened bounds value) := by
  intro n hn
  obtain ⟨before, hbefore, heq⟩ := isPart_shortened.mp hn
  cases before with
  | number m =>
      cases heq
      exact h n hbefore
  | _ => contradiction

-- Cleaned members are put in order again, cut ones stay in theirs.

theorem canonical_clean (value : Json) : Canonical (clean escape value).1 := by
  induction value with
  | array items ih =>
      refine .array fun item hitem => ?_
      obtain ⟨before, hbefore, rfl⟩ := mem_cleanItems hitem
      exact ih before hbefore
  | object members ih =>
      refine canonical_ofMembers fun pair hpair => ?_
      obtain ⟨before, hbefore, rfl⟩ := mem_cleanMembers hpair
      exact ih before hbefore
  | _ => exact canonical_of_isLeaf rfl

theorem Canonical.shorten {value : Json} (h : Canonical value) :
    Canonical (shortened bounds value) := by
  induction h with
  | array _ ih =>
      rw [shortened, shortenedItems_eq_map]
      refine .array fun item hitem => ?_
      obtain ⟨before, hbefore, rfl⟩ := List.mem_map.mp hitem
      exact ih before hbefore
  | object hkeys _ ih =>
      rw [shortened, shortenedMembers_eq_map]
      refine .object (List.pairwise_map.mpr hkeys) fun member hmember => ?_
      obtain ⟨before, hbefore, rfl⟩ := List.mem_map.mp hmember
      exact ih before hbefore
  | _ => exact canonical_of_isLeaf rfl

end RequestGuard.Json

namespace RequestGuard.Validation

open Json (IsPart)

-- What a cleaned value mentions is cleaned from what the value mentions.
theorem mentions_clean {escape : Bool} {value : Json} {s : String}
    (h : Mentions (value.clean escape).1 s) : ∃ t, Mentions value t ∧ s = cleaned escape t := by
  rcases h with htext | ⟨members, hmembers, member, hmember, rfl⟩
  · obtain ⟨before, hbefore, heq⟩ := Json.exists_of_isPart_clean htext
    cases before with
    | text t => exact ⟨t, .inl hbefore, Json.text.inj heq⟩
    | _ => contradiction
  · obtain ⟨before, hbefore, heq⟩ := Json.exists_of_isPart_clean hmembers
    cases before with
    | object others =>
        cases heq
        have hpair := (Json.mem_gathered hmember).resolve_left List.not_mem_nil
        obtain ⟨original, horiginal, rfl⟩ := Json.mem_cleanMembers hpair
        exact ⟨original.1, .inr ⟨others, hbefore, original, horiginal, rfl⟩, rfl⟩
    | _ => contradiction

end RequestGuard.Validation
