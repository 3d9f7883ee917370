import RequestGuard.Pattern

namespace RequestGuard.Pattern

variable {p q r : Pattern} {set : CharSet} {before after : Option Char} {text rest : List Char}
  {c : Char}

-- How each pattern matches.

theorem matches_never : ¬Matches never before text after := by
  intro h
  cases h

theorem matches_nothing : Matches nothing before text after ↔ text = [] := by
  constructor
  · intro h
    cases h
    rfl
  · rintro rfl
    exact .nothing

theorem matches_edge : Matches edge before text after ↔ text = [] ∧ isEdge before after = true := by
  constructor
  · intro h
    cases h with
    | edge h => exact ⟨rfl, h⟩
  · rintro ⟨rfl, h⟩
    exact .edge h

theorem matches_one : Matches (one set) before text after ↔ ∃ c, text = [c] ∧ set.has c = true := by
  constructor
  · intro h
    cases h with
    | one h => exact ⟨_, rfl, h⟩
  · rintro ⟨c, rfl, h⟩
    exact .one h

theorem matches_seq : Matches (seq p q) before text after ↔
    ∃ u v, text = u ++ v ∧ Matches p before u (firstOr v after) ∧
      Matches q (lastOr before u) v after := by
  constructor
  · intro h
    cases h with
    | seq hp hq => exact ⟨_, _, rfl, hp, hq⟩
  · rintro ⟨u, v, rfl, hp, hq⟩
    exact .seq hp hq

theorem matches_or : Matches (or p q) before text after ↔
    Matches p before text after ∨ Matches q before text after := by
  constructor
  · intro h
    cases h with
    | left h => exact .inl h
    | right h => exact .inr h
  · rintro (h | h)
    · exact .left h
    · exact .right h

theorem matches_star : Matches (star p) before text after ↔ text = [] ∨
    ∃ c u v, text = c :: u ++ v ∧ Matches p before (c :: u) (firstOr v after) ∧
      Matches (star p) (lastOr before (c :: u)) v after := by
  constructor
  · intro h
    cases h with
    | done => exact .inl rfl
    | more hp hs => exact .inr ⟨_, _, _, rfl, hp, hs⟩
  · rintro (rfl | ⟨c, u, v, rfl, hp, hs⟩)
    · exact .done
    · exact .more hp hs

theorem lastOr_cons (before : Option Char) (c : Char) (u : List Char) :
    lastOr before (c :: u) = lastOr (some c) u := by
  cases u with
  | nil => rfl
  | cons d u => simp [lastOr, List.getLast?_cons]

theorem accepts_iff : p.accepts before after = true ↔ Matches p before [] after := by
  induction p with
  | never => simp [accepts, matches_never]
  | nothing => simp [accepts, matches_nothing]
  | edge => simp [accepts, matches_edge]
  | one set => simp [accepts, matches_one]
  | seq p q ihp ihq =>
      simp only [accepts, Bool.and_eq_true, ihp, ihq, matches_seq]
      constructor
      · rintro ⟨hp, hq⟩
        exact ⟨[], [], rfl, hp, hq⟩
      · rintro ⟨u, v, huv, hp, hq⟩
        obtain ⟨rfl, rfl⟩ := List.append_eq_nil_iff.mp huv.symm
        exact ⟨hp, hq⟩
  | or p q ihp ihq => simp only [accepts, Bool.or_eq_true, ihp, ihq, matches_or]
  | star p _ => exact iff_of_true rfl .done

-- What is left of a pattern that is followed by another one.
theorem matches_followed : Matches (if r = nothing then q else seq r q) before text after ↔
    Matches (seq r q) before text after := by
  split
  · next h =>
      subst h
      simp only [matches_seq, matches_nothing]
      constructor
      · exact fun hq => ⟨[], text, rfl, rfl, hq⟩
      · rintro ⟨u, v, rfl, rfl, hq⟩
        exact hq
  · exact Iff.rfl

-- A text matches if what follows its first character matches one of the choices that are left.
theorem matches_cons_iff : Matches p before (c :: rest) after ↔
    ∃ r ∈ p.next before c, Matches r (some c) rest after := by
  induction p generalizing before rest after with
  | never => simp [matches_never, next]
  | nothing => simp [matches_nothing, next]
  | edge => simp [matches_edge, next]
  | one set =>
      rw [matches_one]
      unfold next
      split
      · next h =>
          simp only [List.mem_singleton, exists_eq_left, matches_nothing]
          constructor
          · rintro ⟨d, heq, -⟩
            exact (List.cons.inj heq).2
          · rintro rfl
            exact ⟨c, rfl, h⟩
      · next h => simp [h]
  | seq p q ihp ihq =>
      simp only [next, List.mem_append, List.mem_map, or_and_right, exists_or, matches_seq]
      constructor
      · rintro ⟨u, v, huv, hp, hq⟩
        cases u with
        | nil =>
            have hv : v = c :: rest := huv.symm
            subst hv
            obtain ⟨r, hr, hrest⟩ := ihq.mp hq
            have haccepts : p.accepts before (some c) = true := accepts_iff.mpr hp
            exact .inr ⟨r, by rwa [if_pos haccepts], hrest⟩
        | cons d u =>
            obtain ⟨rfl, rfl⟩ := List.cons.inj huv
            obtain ⟨r, hr, hrest⟩ := ihp.mp hp
            rw [lastOr_cons] at hq
            exact .inl ⟨_, ⟨r, hr, rfl⟩, matches_followed.mpr (.seq hrest hq)⟩
      · rintro (⟨_, ⟨r, hr, rfl⟩, hrest⟩ | ⟨r, hr, hrest⟩)
        · obtain ⟨u, v, rfl, hu, hv⟩ := matches_seq.mp (matches_followed.mp hrest)
          rw [← lastOr_cons before c u] at hv
          exact ⟨c :: u, v, rfl, ihp.mpr ⟨r, hr, hu⟩, hv⟩
        · split at hr
          · next haccepts =>
              exact ⟨[], c :: rest, rfl, accepts_iff.mp haccepts, ihq.mpr ⟨r, hr, hrest⟩⟩
          · exact absurd hr List.not_mem_nil
  | or p q ihp ihq =>
      simp only [next, List.mem_append, or_and_right, exists_or, matches_or, ihp, ihq]
  | star p ih =>
      rw [matches_star]
      simp only [next, List.mem_map]
      constructor
      · rintro (hnil | ⟨d, u, v, huv, hp, hs⟩)
        · contradiction
        · obtain ⟨rfl, rfl⟩ := List.cons.inj huv
          obtain ⟨r, hr, hrest⟩ := ih.mp hp
          rw [lastOr_cons] at hs
          exact ⟨_, ⟨r, hr, rfl⟩, matches_followed.mpr (.seq hrest hs)⟩
      · rintro ⟨_, ⟨r, hr, rfl⟩, hrest⟩
        obtain ⟨u, v, rfl, hu, hv⟩ := matches_seq.mp (matches_followed.mp hrest)
        rw [← lastOr_cons before c u] at hv
        exact .inr ⟨c, u, v, rfl, ih.mpr ⟨r, hr, hu⟩, hv⟩

-- A pattern begins where a text begins.
def Begins (p : Pattern) (before : Option Char) (text : List Char) : Prop :=
  ∃ v w, text = v ++ w ∧ Matches p before v w.head?

-- A pattern begins somewhere in a text.
def Found (p : Pattern) (before : Option Char) (text : List Char) : Prop :=
  ∃ u rest, text = u ++ rest ∧ Begins p (lastOr before u) rest

theorem begins_nil : Begins p before [] ↔ p.accepts before none = true := by
  rw [accepts_iff]
  constructor
  · rintro ⟨v, w, hvw, h⟩
    obtain ⟨rfl, rfl⟩ := List.append_eq_nil_iff.mp hvw.symm
    exact h
  · exact fun h => ⟨[], [], rfl, h⟩

theorem begins_cons : Begins p before (c :: rest) ↔
    p.accepts before (some c) = true ∨ ∃ r ∈ p.next before c, Begins r (some c) rest := by
  rw [accepts_iff]
  constructor
  · rintro ⟨v, w, hvw, h⟩
    cases v with
    | nil =>
        have hw : w = c :: rest := hvw.symm
        subst hw
        exact .inl h
    | cons d v =>
        obtain ⟨rfl, rfl⟩ := List.cons.inj hvw
        obtain ⟨r, hr, hrest⟩ := matches_cons_iff.mp h
        exact .inr ⟨r, hr, v, w, rfl, hrest⟩
  · rintro (h | ⟨r, hr, v, w, rfl, h⟩)
    · exact ⟨[], c :: rest, rfl, h⟩
    · exact ⟨c :: v, w, rfl, matches_cons_iff.mpr ⟨r, hr, h⟩⟩

theorem found_nil : Found p before [] ↔ Begins p before [] := by
  constructor
  · rintro ⟨u, rest, hu, h⟩
    obtain ⟨rfl, rfl⟩ := List.append_eq_nil_iff.mp hu.symm
    exact h
  · exact fun h => ⟨[], [], rfl, h⟩

theorem found_cons :
    Found p before (c :: rest) ↔ Begins p before (c :: rest) ∨ Found p (some c) rest := by
  constructor
  · rintro ⟨u, behind, hu, h⟩
    cases u with
    | nil =>
        have hbehind : behind = c :: rest := hu.symm
        subst hbehind
        exact .inl h
    | cons d u =>
        obtain ⟨rfl, rfl⟩ := List.cons.inj hu
        rw [lastOr_cons] at h
        exact .inr ⟨u, behind, rfl, h⟩
  · rintro (h | ⟨u, behind, rfl, h⟩)
    · exact ⟨[], c :: rest, rfl, h⟩
    · rw [← lastOr_cons before c u] at h
      exact ⟨c :: u, behind, rfl, h⟩

theorem mem_advance {choices : List Pattern} :
    r ∈ advance before c choices ↔ ∃ q ∈ choices, r ∈ q.next before c := by
  rw [advance, List.mem_eraseDups, List.mem_flatMap]

-- The search answers whether a choice under way is completed or the pattern begins further on.
theorem search_iff {choices : List Pattern} : p.search before choices text = true ↔
    (∃ q ∈ choices, Begins q before text) ∨ Found p before text := by
  induction text generalizing before choices with
  | nil =>
      simp only [search, List.any_eq_true, List.mem_cons, exists_eq_or_imp, found_nil, begins_nil]
      exact or_comm
  | cons c rest ih =>
      have hstep : (∃ r ∈ advance before c (p :: choices), Begins r (some c) rest) ↔
          ∃ q ∈ p :: choices, ∃ r ∈ q.next before c, Begins r (some c) rest := by
        simp only [mem_advance]
        constructor
        · rintro ⟨r, ⟨q, hq, hr⟩, h⟩
          exact ⟨q, hq, r, hr, h⟩
        · rintro ⟨q, hq, r, hr, h⟩
          exact ⟨r, ⟨q, hq, hr⟩, h⟩
      have hbegins : (∃ q ∈ p :: choices, Begins q before (c :: rest)) ↔
          (∃ q ∈ p :: choices, q.accepts before (some c) = true) ∨
            ∃ q ∈ p :: choices, ∃ r ∈ q.next before c, Begins r (some c) rest := by
        simp only [begins_cons, and_or_left, exists_or]
      rw [search, Bool.or_eq_true, List.any_eq_true, ih, hstep, ← or_assoc, ← hbegins, found_cons]
      simp only [List.mem_cons, exists_eq_or_imp]
      rw [or_assoc, or_left_comm]

-- A pattern occurs in a text if it matches some part of it between its neighbours.
theorem occursIn_iff : p.occursIn text = true ↔ Found p none text := by
  rw [occursIn, search_iff]
  simp

end RequestGuard.Pattern
