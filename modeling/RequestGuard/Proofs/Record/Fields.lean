import RequestGuard.Record
import Mathlib.Tactic.SplitIfs

namespace RequestGuard

namespace Json

variable {key other : String} {value : Json} {members : List (String × Json)}

theorem lookup_member_self : lookup key (member key value members) = some value := by
  induction members with
  | nil => simp [member, lookup]
  | cons head rest ih =>
      obtain ⟨k, v⟩ := head
      simp only [member]
      split_ifs with hlt heq
      · exact if_pos rfl
      · exact if_pos rfl
      · rw [lookup, if_neg (Ne.symm heq)]
        exact ih

theorem lookup_member_of_ne (h : other ≠ key) :
    lookup other (member key value members) = lookup other members := by
  induction members with
  | nil => exact if_neg (Ne.symm h)
  | cons head rest ih =>
      obtain ⟨k, v⟩ := head
      simp only [member]
      split_ifs with hlt heq
      · exact if_neg (Ne.symm h)
      · subst heq
        rw [lookup, lookup, if_neg (Ne.symm h), if_neg (Ne.symm h)]
      · rw [lookup, lookup, ih]

theorem lookup_eq_none (h : key ∉ members.map Prod.fst) : lookup key members = none := by
  induction members with
  | nil => rfl
  | cons head rest ih =>
      obtain ⟨k, v⟩ := head
      rw [List.map_cons, List.mem_cons, not_or] at h
      rw [lookup, if_neg (Ne.symm h.1), ih h.2]

end Json

namespace Record

variable {key other : String} {value : Json} {fields : Fields}

@[simp] theorem category_field (record : Record) (key : String) (value : Json) :
    (record.field key value).category = record.category := rfl

@[simp] theorem severity_field (record : Record) (key : String) (value : Json) :
    (record.field key value).severity = record.severity := rfl

@[simp] theorem category_extend (record : Record) (fields : Fields) :
    (record.extend fields).category = record.category := by
  unfold extend
  induction fields generalizing record with
  | nil => rfl
  | cons field rest ih => exact ih _

@[simp] theorem severity_extend (record : Record) (fields : Fields) :
    (record.extend fields).severity = record.severity := by
  unfold extend
  induction fields generalizing record with
  | nil => rfl
  | cons field rest ih => exact ih _

@[simp] theorem get?_field_self (record : Record) (key : String) (value : Json) :
    (record.field key value).get? key = some value :=
  Json.lookup_member_self

theorem get?_field_of_ne (h : other ≠ key) (record : Record) (value : Json) :
    (record.field key value).get? other = record.get? other :=
  Json.lookup_member_of_ne h

-- Fields that are added take the place of those of the same name only.
theorem get?_extend_of_absent (h : Json.lookup key fields = none) (record : Record) :
    (record.extend fields).get? key = record.get? key := by
  unfold extend
  induction fields generalizing record with
  | nil => rfl
  | cons field rest ih =>
      obtain ⟨k, v⟩ := field
      simp only [Json.lookup] at h
      split_ifs at h with heq
      rw [List.foldl_cons, ih h, get?_field_of_ne (Ne.symm heq)]

-- Fields of different names are all there.
theorem get?_extend_of_nodup (h : (fields.map Prod.fst).Nodup) (record : Record) (key : String) :
    (record.extend fields).get? key = (Json.lookup key fields).or (record.get? key) := by
  unfold extend
  induction fields generalizing record with
  | nil => rfl
  | cons field rest ih =>
      obtain ⟨k, v⟩ := field
      obtain ⟨hk, hrest⟩ := List.nodup_cons.mp h
      rw [List.foldl_cons, ih hrest, Json.lookup]
      split_ifs with heq
      · subst heq
        rw [Json.lookup_eq_none hk, get?_field_self]
        rfl
      · rw [get?_field_of_ne (Ne.symm heq)]

end Record

end RequestGuard
