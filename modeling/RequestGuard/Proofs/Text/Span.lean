import Mathlib.Data.List.TakeWhile

namespace RequestGuard.Text

variable {text taken other rest more : List Char} {p : Char → Bool} {mark : Char}

-- The part of a text that a reader takes ends where another kind of character begins.
def Ends (p : Char → Bool) (rest : List Char) : Prop :=
  ∀ c ∈ rest.head?, p c = false

theorem span_iff : text.takeWhile p = taken ∧ text.dropWhile p = rest ↔
    text = taken ++ rest ∧ (∀ c ∈ taken, p c = true) ∧ Ends p rest := by
  constructor
  · rintro ⟨rfl, rfl⟩
    refine ⟨List.takeWhile_append_dropWhile.symm, fun c hc => List.mem_takeWhile_imp hc, ?_⟩
    intro c hc
    have hstop := List.head?_dropWhile_not p text
    rwa [Option.mem_def.mp hc] at hstop
  · rintro ⟨rfl, htaken, hrest⟩
    rw [List.takeWhile_append_of_pos htaken, List.dropWhile_append_of_pos htaken]
    cases rest with
    | nil => simp
    | cons c rest =>
        have hc := hrest c rfl
        simp [hc]

theorem ends_mark (hmark : p mark = false) (rest : List Char) : Ends p (mark :: rest) := by
  rintro c hc
  cases hc
  exact hmark

-- A text is divided in one way only into a part of one kind and what begins with another kind.
theorem append_inj_of_ends (htaken : ∀ c ∈ taken, p c = true) (hother : ∀ c ∈ other, p c = true)
    (hrest : Ends p rest) (hmore : Ends p more) (h : taken ++ rest = other ++ more) :
    taken = other ∧ rest = more := by
  obtain ⟨htake, hdrop⟩ := span_iff.mpr ⟨rfl, htaken, hrest⟩
  obtain ⟨htake', hdrop'⟩ := span_iff.mpr ⟨rfl, hother, hmore⟩
  rw [h] at htake hdrop
  exact ⟨htake.symm.trans htake', hdrop.symm.trans hdrop'⟩

end RequestGuard.Text
