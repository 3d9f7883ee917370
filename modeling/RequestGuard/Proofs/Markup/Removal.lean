import RequestGuard.Proofs.Markup.Tags
import Mathlib.Logic.Function.Iterate

namespace RequestGuard.Markup

variable {text rest after : List Char}

-- What a finder passes is left out.

section Finder

variable {finder : List Char → Option (List Char)}

-- A finder takes at least a character from the front of a text.
def Advances (finder : List Char → Option (List Char)) : Prop :=
  ∀ text after, finder text = some after → ∃ piece, piece ≠ [] ∧ text = piece ++ after

theorem without_sublist (h : Advances finder) (fuel : Nat) (text : List Char) :
    (without finder fuel text).Sublist text := by
  induction fuel generalizing text with
  | zero => exact .refl text
  | succ fuel ih =>
      cases text with
      | nil => exact .refl []
      | cons c rest =>
          rw [without]
          split
          · next after hafter =>
              obtain ⟨piece, -, htext⟩ := h _ _ hafter
              rw [htext]
              exact (ih after).trans (List.sublist_append_right piece after)
          · exact (ih rest).cons_cons c

-- With fuel for every character nothing stays exactly if nothing is found anywhere.
theorem without_eq_self_iff (h : Advances finder) {fuel : Nat} (hfuel : text.length ≤ fuel) :
    without finder fuel text = text ↔ ∀ rest, rest <:+ text → finder rest = none := by
  have hnil : finder [] = none := by
    rw [Option.eq_none_iff_forall_ne_some]
    intro after hafter
    obtain ⟨piece, hpiece, hnil⟩ := h _ _ hafter
    exact hpiece (List.append_eq_nil_iff.mp hnil.symm).1
  induction fuel generalizing text with
  | zero =>
      obtain rfl := List.length_eq_zero_iff.mp (Nat.le_zero.mp hfuel)
      simpa [without] using hnil
  | succ fuel ih =>
      cases text with
      | nil => simpa [without] using hnil
      | cons c rest =>
          rw [without]
          cases hfound : finder (c :: rest) with
          | some after =>
              obtain ⟨piece, hpiece, htext⟩ := h _ _ hfound
              have hshort : (without finder fuel after).length < (c :: rest).length := by
                have hle := (without_sublist h fuel after).length_le
                have hpos := List.length_pos_iff.mpr hpiece
                rw [htext, List.length_append]
                omega
              refine iff_of_false (fun heq => ?_) fun hnone => ?_
              · exact absurd (congrArg List.length heq) (Nat.ne_of_lt hshort)
              · exact absurd (hfound.symm.trans (hnone _ (List.suffix_refl _))) (by simp)
          | none =>
              have hrest := ih (Nat.le_of_succ_le_succ hfuel)
              simp only [List.cons.injEq, true_and, hrest, List.suffix_cons_iff]
              constructor
              · rintro hnone rest (rfl | hsuffix)
                · exact hfound
                · exact hnone rest hsuffix
              · exact fun hnone rest hsuffix => hnone rest (.inr hsuffix)

theorem removed_sublist (h : Advances finder) (text : List Char) :
    (removed finder text).Sublist text :=
  without_sublist h text.length text

theorem removed_eq_self_iff (h : Advances finder) :
    removed finder text = text ↔ ∀ rest, rest <:+ text → finder rest = none :=
  without_eq_self_iff h (Nat.le_refl _)

end Finder

theorem Tag.ne_nil {tag : List Char} (h : Tag tag) : tag ≠ [] := by
  cases h
  exact List.cons_ne_nil _ _

theorem Block.ne_nil {block : List Char} (h : Block block) : block ≠ [] := by
  cases h
  exact List.cons_ne_nil _ _

theorem advances_pastTag : Advances pastTag := by
  intro text after h
  obtain ⟨tag, htag, htext⟩ := pastTag_eq_some_iff.mp h
  exact ⟨tag, htag.ne_nil, htext⟩

theorem advances_pastBlock : Advances pastBlock := by
  intro text after h
  obtain ⟨block, hblock, htext⟩ := exists_block h
  exact ⟨block, hblock.ne_nil, htext⟩

-- The finders find something somewhere exactly if there is something to find.
theorem unmarked_iff : Unmarked text ↔
    (∀ rest, rest <:+ text → pastTag rest = none) ∧
      ∀ rest, rest <:+ text → pastBlock rest = none := by
  constructor
  · rintro ⟨htags, hblocks⟩
    constructor
    · rintro rest ⟨before, rfl⟩
      rw [Option.eq_none_iff_forall_ne_some]
      intro after hafter
      obtain ⟨tag, htag, rfl⟩ := pastTag_eq_some_iff.mp hafter
      exact htags tag htag ⟨before, after, List.append_assoc _ _ _⟩
    · rintro rest ⟨before, rfl⟩
      rw [Option.eq_none_iff_forall_ne_some]
      intro after hafter
      obtain ⟨block, hblock, rfl⟩ := exists_block hafter
      exact hblocks block hblock ⟨before, after, List.append_assoc _ _ _⟩
  · rintro ⟨htags, hblocks⟩
    constructor
    · rintro tag htag ⟨before, after, rfl⟩
      have hnone := htags (tag ++ after) ⟨before, (List.append_assoc _ _ _).symm⟩
      rw [pastTag_eq_some_iff.mpr ⟨tag, htag, rfl⟩] at hnone
      contradiction
    · rintro block hblock ⟨before, after, rfl⟩
      have hnone := hblocks (block ++ after) ⟨before, (List.append_assoc _ _ _).symm⟩
      have hsome := pastBlock_isSome hblock after
      rw [hnone] at hsome
      contradiction

-- Passes

theorem pass_sublist (text : List Char) : (pass text).Sublist text :=
  (removed_sublist advances_pastTag _).trans (removed_sublist advances_pastBlock text)

theorem pass_eq_self_iff : pass text = text ↔ Unmarked text := by
  rw [unmarked_iff, ← removed_eq_self_iff advances_pastTag,
    ← removed_eq_self_iff advances_pastBlock, pass]
  constructor
  · intro h
    -- taking a block away could not be made good by the tags
    have hblocks : removed pastBlock text = text := by
      refine (removed_sublist advances_pastBlock text).eq_of_length_le ?_
      have hle := (removed_sublist advances_pastTag (removed pastBlock text)).length_le
      rwa [h] at hle
    rw [hblocks] at h
    exact ⟨h, hblocks⟩
  · rintro ⟨htags, hblocks⟩
    rw [hblocks, htags]

-- The measure of the loop.
theorem length_pass_lt (h : pass text ≠ text) : (pass text).length < text.length :=
  Nat.lt_of_le_of_ne (pass_sublist text).length_le fun heq =>
    h ((pass_sublist text).eq_of_length heq)

theorem pass_stripped (text : List Char) : pass (stripped text) = stripped text :=
  (pass_sublist _).eq_of_length_le (settled_stripped text)

theorem stripped_sublist (text : List Char) : (stripped text).Sublist text := by
  fun_induction stripped text with
  | case1 text hshorter ih => exact ih.trans (pass_sublist text)
  | case2 text hsettled => exact .refl text

-- As many passes as it takes until one changes nothing.
theorem exists_iterate_stripped (text : List Char) :
    ∃ n, stripped text = pass^[n] text ∧ ∀ m < n, pass (pass^[m] text) ≠ pass^[m] text := by
  fun_induction stripped text with
  | case1 text hshorter ih =>
      obtain ⟨n, hn, hbefore⟩ := ih
      refine ⟨n + 1, hn, fun m hm => ?_⟩
      cases m with
      | zero => exact fun heq => Nat.ne_of_lt hshorter (congrArg List.length heq)
      | succ m => exact hbefore m (Nat.lt_of_succ_lt_succ hm)
  | case2 text hsettled => exact ⟨0, rfl, fun m hm => absurd hm (Nat.not_lt_zero m)⟩

-- The passes go on until one changes nothing, and each before it makes the text shorter. What they
-- leave of a text stood in it in this order and holds no tag and no block, and a text that holds
-- neither stays as it is.
theorem stripping_exact (s : String) :
    let left := (stripTags s).toList
    (∀ text, pass text ≠ text → (pass text).length < text.length) ∧
    (∃ n, left = pass^[n] s.toList ∧ pass left = left ∧
      ∀ m < n, pass (pass^[m] s.toList) ≠ pass^[m] s.toList) ∧
    left.Sublist s.toList ∧ Unmarked left ∧ (stripTags s = s ↔ Unmarked s.toList) := by
  intro left
  have hleft : left = stripped s.toList := String.toList_ofList
  obtain ⟨n, hn, hbefore⟩ := exists_iterate_stripped s.toList
  refine ⟨fun text => length_pass_lt, ⟨n, hleft.trans hn, ?_, hbefore⟩, ?_, ?_, ?_⟩
  · rw [hleft, pass_stripped]
  · exact hleft ▸ stripped_sublist s.toList
  · rw [hleft]
    exact pass_eq_self_iff.mp (pass_stripped s.toList)
  · constructor
    · intro h
      have hself : stripped s.toList = s.toList := hleft.symm.trans (congrArg String.toList h)
      exact hself ▸ pass_eq_self_iff.mp (pass_stripped s.toList)
    · intro h
      have hsettled := Nat.le_of_eq (congrArg List.length (pass_eq_self_iff.mpr h).symm)
      rw [stripTags, stripped_of_settled hsettled, String.ofList_toList]

-- What is left of one tag makes another.
example : stripTags "<scr<b>ipt>x</script>" = "x" := by decide +kernel

end RequestGuard.Markup
