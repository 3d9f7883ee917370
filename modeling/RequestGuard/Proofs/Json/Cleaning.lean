import RequestGuard.Json.Clean
import RequestGuard.Proofs.Json.Canonical
import RequestGuard.Proofs.Markup.Escaping

namespace RequestGuard.Json

theorem changes_self (s : String) : changes s s = 0 :=
  if_pos rfl

theorem changes_eq_zero {before after : String} : changes before after = 0 ↔ after = before := by
  unfold changes
  split_ifs with h
  · simp [h]
  · simp [h]

variable {escape : Bool}

-- Cleaning leaves a value as it is and counts nothing.
def Clean (escape : Bool) (value : Json) : Prop :=
  clean escape value = (value, 0)

theorem cleanItems_of_clean {items : List Json} (h : ∀ item ∈ items, Clean escape item) :
    cleanItems escape items = (items, 0) := by
  induction items with
  | nil => rfl
  | cons item rest ih =>
      obtain ⟨hitem, hrest⟩ := List.forall_mem_cons.mp h
      unfold Clean at hitem
      simp only [cleanItems, hitem, ih hrest]

theorem cleanMembers_of_clean {members : List (String × Json)}
    (hkeys : ∀ member ∈ members, cleaned escape member.1 = member.1)
    (hvalues : ∀ member ∈ members, Clean escape member.2) :
    cleanMembers escape members = (members, 0) := by
  induction members with
  | nil => rfl
  | cons member rest ih =>
      obtain ⟨key, value⟩ := member
      obtain ⟨hkey, hkeys⟩ := List.forall_mem_cons.mp hkeys
      obtain ⟨hvalue, hvalues⟩ := List.forall_mem_cons.mp hvalues
      unfold Clean at hvalue
      simp only at hkey
      simp only [cleanMembers, hvalue, hkey, ih hkeys hvalues, changes_self]

theorem clean_array_of_clean {items : List Json} (h : ∀ item ∈ items, Clean escape item) :
    Clean escape (array items) := by
  simp only [Clean, clean, cleanItems_of_clean h]

theorem clean_object_of_clean {members : List (String × Json)} (hascending : Ascending members)
    (hkeys : ∀ member ∈ members, cleaned escape member.1 = member.1)
    (hvalues : ∀ member ∈ members, Clean escape member.2) :
    Clean escape (object members) := by
  simp only [Clean, clean, cleanMembers_of_clean hkeys hvalues, ofMembers_of_ascending hascending]

theorem mem_cleanItems {items : List Json} {item : Json} (h : item ∈ (cleanItems escape items).1) :
    ∃ before ∈ items, item = (clean escape before).1 := by
  induction items with
  | nil => exact absurd h List.not_mem_nil
  | cons head rest ih =>
      rcases List.mem_cons.mp h with rfl | hrest
      · exact ⟨head, List.mem_cons_self, rfl⟩
      · obtain ⟨before, hbefore, heq⟩ := ih hrest
        exact ⟨before, List.mem_cons_of_mem _ hbefore, heq⟩

theorem mem_cleanMembers {members : List (String × Json)} {pair : String × Json}
    (h : pair ∈ (cleanMembers escape members).1) :
    ∃ before ∈ members, pair = (cleaned escape before.1, (clean escape before.2).1) := by
  induction members with
  | nil => exact absurd h List.not_mem_nil
  | cons head rest ih =>
      rcases List.mem_cons.mp h with rfl | hrest
      · exact ⟨head, List.mem_cons_self, rfl⟩
      · obtain ⟨before, hbefore, heq⟩ := ih hrest
        exact ⟨before, List.mem_cons_of_mem _ hbefore, heq⟩

-- Cleaned keys stay as they are, so none collides when the result is cleaned again.
theorem clean_clean (value : Json) : Clean escape (clean escape value).1 := by
  induction value with
  | null => rfl
  | bool b => rfl
  | number n => rfl
  | text s => simp only [Clean, clean, cleaned_cleaned, changes_self]
  | array items ih =>
      refine clean_array_of_clean fun item hitem => ?_
      obtain ⟨before, hbefore, rfl⟩ := mem_cleanItems hitem
      exact ih before hbefore
  | object members ih =>
      -- keys that collide take members away, but add none that is not cleaned
      have hpair : ∀ pair ∈ gathered [] (cleanMembers escape members).1,
          cleaned escape pair.1 = pair.1 ∧ Clean escape pair.2 := by
        intro pair hpair
        have hmem := (mem_gathered hpair).resolve_left List.not_mem_nil
        obtain ⟨before, hbefore, rfl⟩ := mem_cleanMembers hmem
        exact ⟨cleaned_cleaned escape before.1, ih before hbefore⟩
      exact clean_object_of_clean (ascending_gathered List.Pairwise.nil _)
        (fun pair hmem => (hpair pair hmem).1) fun pair hmem => (hpair pair hmem).2

theorem uncounted_of_items {items : List Json} (h : (cleanItems escape items).2 = 0) :
    ∀ item ∈ items, (clean escape item).2 = 0 := by
  induction items with
  | nil => exact fun item hitem => absurd hitem List.not_mem_nil
  | cons head rest ih =>
      obtain ⟨hhead, hrest⟩ := Nat.add_eq_zero_iff.mp h
      exact List.forall_mem_cons.mpr ⟨hhead, ih hrest⟩

theorem uncounted_of_members {members : List (String × Json)}
    (h : (cleanMembers escape members).2 = 0) :
    ∀ member ∈ members, cleaned escape member.1 = member.1 ∧ (clean escape member.2).2 = 0 := by
  induction members with
  | nil => exact fun member hmember => absurd hmember List.not_mem_nil
  | cons head rest ih =>
      obtain ⟨hhead, hrest⟩ := Nat.add_eq_zero_iff.mp h
      obtain ⟨hvalue, hkey⟩ := Nat.add_eq_zero_iff.mp hhead
      exact List.forall_mem_cons.mpr ⟨⟨changes_eq_zero.mp hkey, hvalue⟩, ih hrest⟩

-- A count of zero means that nothing changed.
theorem clean_of_uncounted {value : Json} (hcanonical : Canonical value)
    (h : (clean escape value).2 = 0) : Clean escape value := by
  induction value with
  | null => rfl
  | bool b => rfl
  | number n => rfl
  | text s =>
      have hs : cleaned escape s = s := changes_eq_zero.mp h
      simp only [Clean, clean, hs, changes_self]
  | array items ih =>
      cases hcanonical with
      | array hitems =>
          have huncounted := uncounted_of_items h
          exact clean_array_of_clean fun item hitem =>
            ih item hitem (hitems item hitem) (huncounted item hitem)
  | object members ih =>
      cases hcanonical with
      | object hkeys hvalues =>
          have huncounted := uncounted_of_members h
          exact clean_object_of_clean hkeys (fun member hmember => (huncounted member hmember).1)
            fun member hmember =>
              ih member hmember (hvalues member hmember) (huncounted member hmember).2

theorem uncounted_iff {value : Json} (h : Canonical value) :
    (clean escape value).2 = 0 ↔ (clean escape value).1 = value := by
  constructor
  · intro hzero
    rw [clean_of_uncounted h hzero]
  · intro hsame
    have hclean : Clean escape (clean escape value).1 := clean_clean value
    rw [hsame] at hclean
    rw [hclean]

-- Cleaning twice is cleaning once, and the count tells whether anything changed.
theorem cleaning_idempotent (escape : Bool) :
    (∀ s, cleaned escape (cleaned escape s) = cleaned escape s) ∧
      ∀ value, clean escape (clean escape value).1 = ((clean escape value).1, 0) ∧
        (Canonical value →
          ((clean escape value).2 = 0 ↔ (clean escape value).1 = value)) := by
  refine ⟨cleaned_cleaned escape, fun value => ⟨clean_clean value, ?_⟩⟩
  intro hcanonical
  exact uncounted_iff hcanonical

-- Two keys that become one.
theorem cleaning_idempotent_colliding :
    clean false (clean false (object [("<b>a", text "1"), ("a", text "2")])).1 =
        ((clean false (object [("<b>a", text "1"), ("a", text "2")])).1, 0) ∧
      ((clean false (object [("<b>a", text "1"), ("a", text "2")])).2 = 0 ↔
        (clean false (object [("<b>a", text "1"), ("a", text "2")])).1 =
          object [("<b>a", text "1"), ("a", text "2")]) := by
  obtain ⟨-, hvalues⟩ := cleaning_idempotent false
  obtain ⟨htwice, hcount⟩ := hvalues (object [("<b>a", text "1"), ("a", text "2")])
  refine ⟨htwice, hcount (.object ?_ (by simp [Canonical.text]))⟩
  unfold Ascending
  decide

end RequestGuard.Json
