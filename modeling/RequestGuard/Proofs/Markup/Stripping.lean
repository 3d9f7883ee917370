import RequestGuard.Markup

namespace RequestGuard.Markup

-- Tags and blocks of code begin at an opening angle and nowhere else.

theorem past_of_ne {c d : Char} (h : d ≠ c) (rest : List Char) : past c (d :: rest) = none := by
  simp [past, h]

theorem pastTag_of_ne {c : Char} (h : c ≠ '<') (rest : List Char) :
    pastTag (c :: rest) = none := by
  simp [pastTag, past_of_ne h]

theorem pastBlock_of_ne {c : Char} (h : c ≠ '<') (rest : List Char) :
    pastBlock (c :: rest) = none := by
  simp [pastBlock, pastOpening, past_of_ne h]

section Removal

variable {finder : List Char → Option (List Char)} {text : List Char}

theorem without_of_none (h : ∀ c ∈ text, ∀ rest, finder (c :: rest) = none) (fuel : Nat) :
    without finder fuel text = text := by
  induction fuel generalizing text with
  | zero => rfl
  | succ fuel ih =>
      cases text with
      | nil => rfl
      | cons c rest =>
          obtain ⟨hhead, hrest⟩ := List.forall_mem_cons.mp h
          simp only [without, hhead]
          rw [ih hrest]

theorem removed_of_none (h : ∀ c ∈ text, ∀ rest, finder (c :: rest) = none) :
    removed finder text = text :=
  without_of_none h text.length

end Removal

theorem pass_of_no_angle {text : List Char} (h : '<' ∉ text) : pass text = text := by
  have hne : ∀ c ∈ text, c ≠ '<' := fun c hc hangle => h (hangle ▸ hc)
  have hblock : removed pastBlock text = text :=
    removed_of_none fun c hc rest => pastBlock_of_ne (hne c hc) rest
  have htag : removed pastTag text = text :=
    removed_of_none fun c hc rest => pastTag_of_ne (hne c hc) rest
  rw [pass, hblock, htag]

-- The passes end at a text that a further pass takes nothing from.
theorem settled_stripped (text : List Char) :
    (stripped text).length ≤ (pass (stripped text)).length := by
  fun_induction stripped text with
  | case1 text hshorter ih => exact ih
  | case2 text hsettled => exact Nat.le_of_not_lt hsettled

theorem stripped_of_settled {text : List Char} (h : text.length ≤ (pass text).length) :
    stripped text = text := by
  unfold stripped
  rw [if_neg (Nat.not_lt.mpr h)]

theorem stripped_stripped (text : List Char) : stripped (stripped text) = stripped text :=
  stripped_of_settled (settled_stripped text)

theorem stripped_of_no_angle {text : List Char} (h : '<' ∉ text) : stripped text = text := by
  apply stripped_of_settled
  exact Nat.le_of_eq (congrArg List.length (pass_of_no_angle h).symm)

end RequestGuard.Markup
