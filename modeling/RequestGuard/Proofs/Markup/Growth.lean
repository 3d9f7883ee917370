import RequestGuard.Proofs.Markup.Decoding
import RequestGuard.Proofs.Markup.Removal
import Mathlib.Algebra.GroupWithZero.Nat

namespace RequestGuard.Markup

variable {v w : Char → Nat} {factor : Nat}

-- What the characters of a text weigh together.
def weight (w : Char → Nat) (text : List Char) : Nat :=
  (text.map w).sum

@[simp] theorem weight_nil : weight w [] = 0 := rfl

@[simp] theorem weight_cons (c : Char) (rest : List Char) :
    weight w (c :: rest) = w c + weight w rest := by
  simp [weight]

@[simp] theorem weight_append (text more : List Char) :
    weight w (text ++ more) = weight w text + weight w more := by
  simp [weight]

theorem weight_one (text : List Char) : weight (fun _ => 1) text = text.length := by
  simp [weight]

theorem weight_flatMap (f : Char → List Char) (text : List Char) :
    weight w (text.flatMap f) = weight (fun c => weight w (f c)) text := by
  induction text with
  | nil => rfl
  | cons c rest ih => rw [List.flatMap_cons, weight_append, ih, weight_cons]

theorem weight_le_of_sublist {text more : List Char} (h : text.Sublist more) :
    weight w text ≤ weight w more := by
  induction h with
  | slnil => exact Nat.le_refl _
  | cons c _ ih =>
      rw [weight_cons]
      exact Nat.le_add_left_of_le ih
  | cons_cons c _ ih =>
      rw [weight_cons, weight_cons]
      exact Nat.add_le_add_left ih (w c)

theorem weight_le_mul (h : ∀ c, w c ≤ factor * v c) (text : List Char) :
    weight w text ≤ factor * weight v text := by
  induction text with
  | nil => exact Nat.zero_le _
  | cons c rest ih =>
      rw [weight_cons, weight_cons, Nat.mul_add]
      exact Nat.add_le_add (h c) ih

-- Escaping writes at most the entity of each character in its place.
theorem weight_escaped_le (hkept : ∀ c, w c ≤ factor * v c)
    (hentity : ∀ mark ∈ marks, weight w mark.1 ≤ factor * v mark.2) (text : List Char) :
    weight w (escaped text) ≤ factor * weight v text := by
  induction text with
  | nil => exact Nat.zero_le _
  | cons c rest ih =>
      rw [weight_cons, Nat.mul_add]
      rcases escaped_marked_or_kept c rest with ⟨entity, hmark, hescaped, -⟩ | ⟨hescaped, -⟩
      · rw [hescaped, weight_append]
        exact Nat.add_le_add (hentity _ hmark) ih
      · rw [hescaped, weight_cons]
        exact Nat.add_le_add (hkept c) ih

theorem weight_cleaned_le {escape : Bool} (hkept : ∀ c, w c ≤ factor * v c)
    (hentity : escape = true → ∀ mark ∈ marks, weight w mark.1 ≤ factor * v mark.2) (s : String) :
    weight w (cleaned escape s).toList ≤ factor * weight v s.toList := by
  have hstripped : weight v (stripTags s).toList ≤ weight v s.toList := by
    rw [stripTags, String.toList_ofList]
    exact weight_le_of_sublist (stripped_sublist s.toList)
  refine Nat.le_trans ?_ (Nat.mul_le_mul_left factor hstripped)
  unfold cleaned
  split
  · next hescape =>
      rw [escapeMarkup, String.toList_ofList]
      exact weight_escaped_le hkept (hentity hescape) _
  · exact weight_le_mul hkept _

-- How many times longer than before cleaning makes a text at most. The longest entities have six
-- characters.
def growth (escape : Bool) : Nat :=
  if escape then 6 else 1

theorem growth_pos (escape : Bool) : 1 ≤ growth escape := by
  cases escape with
  | _ => decide

theorem growth_le (escape : Bool) : growth escape ≤ 6 := by
  cases escape with
  | _ => decide

theorem weight_cleaned_le_growth (escape : Bool)
    (hentity : ∀ mark ∈ marks, weight w mark.1 ≤ 6 * w mark.2) (s : String) :
    weight w (cleaned escape s).toList ≤ growth escape * weight w s.toList := by
  refine weight_cleaned_le (fun c => Nat.le_mul_of_pos_left _ (growth_pos escape)) ?_ s
  rintro rfl
  exact hentity

end RequestGuard.Markup
