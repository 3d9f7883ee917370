import RequestGuard.Proofs.Pattern.Search

namespace RequestGuard.Pattern

variable {p q : Pattern} {before after : Option Char} {text : List Char} {c : Char}

-- The neighbours of a part of a text

theorem firstOr_append (u v : List Char) (after : Option Char) :
    firstOr (u ++ v) after = firstOr u (firstOr v after) := by
  cases u with
  | nil => rfl
  | cons c u => rfl

theorem firstOr_head (u v : List Char) : firstOr u v.head? = (u ++ v).head? := by
  rw [firstOr, List.head?_append]

theorem lastOr_append (before : Option Char) (u v : List Char) :
    lastOr before (u ++ v) = lastOr (lastOr before u) v := by
  induction u generalizing before with
  | nil => rfl
  | cons c u ih => rw [List.cons_append, lastOr_cons, ih, lastOr_cons]

theorem isWordAt_firstOr {after after' : Option Char} (h : isWordAt after = isWordAt after')
    (v : List Char) : isWordAt (firstOr v after) = isWordAt (firstOr v after') := by
  cases v with
  | nil => exact h
  | cons c v => rfl

theorem isWordAt_lastOr {before before' : Option Char} (h : isWordAt before = isWordAt before')
    (u : List Char) : isWordAt (lastOr before u) = isWordAt (lastOr before' u) := by
  cases u with
  | nil => exact h
  | cons c u => rw [lastOr_cons, lastOr_cons]

-- A match sees of its neighbours only whether they belong to words.
theorem Matches.congr {before' after' : Option Char} (h : Matches p before text after)
    (hbefore : isWordAt before = isWordAt before') (hafter : isWordAt after = isWordAt after') :
    Matches p before' text after' := by
  induction h generalizing before' after' with
  | nothing => exact .nothing
  | edge hedge => exact .edge (by rwa [isEdge, ← hbefore, ← hafter])
  | one hset => exact .one hset
  | seq _ _ ihp ihq =>
      exact .seq (ihp hbefore (isWordAt_firstOr hafter _)) (ihq (isWordAt_lastOr hbefore _) hafter)
  | left _ ih => exact .left (ih hbefore hafter)
  | right _ ih => exact .right (ih hbefore hafter)
  | done => exact .done
  | more _ _ ihp ihs =>
      exact .more (ihp hbefore (isWordAt_firstOr hafter _))
        (ihs (isWordAt_lastOr hbefore _) hafter)

-- Patterns in a row

theorem matches_ofList_cons (p : Pattern) (ps : List Pattern) :
    Matches (ofList (p :: ps)) before text after ↔
      Matches (seq p (ofList ps)) before text after := by
  cases ps with
  | nil =>
      simp only [ofList, matches_seq, matches_nothing]
      constructor
      · exact fun h => ⟨text, [], (List.append_nil text).symm, h, rfl⟩
      · rintro ⟨u, v, rfl, h, rfl⟩
        rwa [List.append_nil]
  | cons q ps => rfl

theorem matches_ofList_append (ps qs : List Pattern) :
    Matches (ofList (ps ++ qs)) before text after ↔
      ∃ u v, text = u ++ v ∧ Matches (ofList ps) before u (firstOr v after) ∧
        Matches (ofList qs) (lastOr before u) v after := by
  induction ps generalizing before text with
  | nil =>
      simp only [ofList, matches_nothing]
      constructor
      · exact fun h => ⟨[], text, rfl, rfl, h⟩
      · rintro ⟨u, v, rfl, rfl, h⟩
        exact h
  | cons p ps ih =>
      simp only [List.cons_append, matches_ofList_cons, matches_seq, ih]
      constructor
      · rintro ⟨a, _, rfl, hp, b, v, rfl, hps, hqs⟩
        refine ⟨a ++ b, v, (List.append_assoc a b v).symm, ⟨a, b, rfl, ?_, hps⟩, ?_⟩
        · rwa [← firstOr_append]
        · rwa [lastOr_append]
      · rintro ⟨_, v, rfl, ⟨a, b, rfl, hp, hps⟩, hqs⟩
        refine ⟨a, b ++ v, List.append_assoc a b v, ?_, b, v, rfl, hps, ?_⟩
        · rwa [firstOr_append]
        · rwa [← lastOr_append]

theorem matches_starOne {set : CharSet} :
    Matches (star (one set)) before text after ↔ ∀ c ∈ text, set.has c = true := by
  constructor
  · intro h
    generalize hp : star (one set) = p at h
    induction h with
    | done => exact fun c hc => absurd hc List.not_mem_nil
    | more hone _ _ ih =>
        cases hp
        obtain ⟨d, heq, hd⟩ := matches_one.mp hone
        obtain ⟨rfl, rfl⟩ := List.cons.inj heq
        exact List.forall_mem_cons.mpr ⟨hd, ih rfl⟩
    | _ => contradiction
  · intro h
    induction text generalizing before with
    | nil => exact .done
    | cons c text ih =>
        obtain ⟨hc, htext⟩ := List.forall_mem_cons.mp h
        exact .more (.one hc) (ih htext)

-- The characters of what a pattern matches

-- Every text that matches has a character of one of these sets.
def needs (sets : CharSet → Bool) : Pattern → Bool
  | never => true
  | nothing => false
  | edge => false
  | one set => sets set
  | seq p q => p.needs sets || q.needs sets
  | or p q => p.needs sets && q.needs sets
  | star _ => false

-- No text that matches has the character.
def avoids (c : Char) : Pattern → Bool
  | never => true
  | nothing => true
  | edge => true
  | one set => !set.has c
  | seq p q => p.avoids c && q.avoids c
  | or p q => p.avoids c && q.avoids c
  | star p => p.avoids c

theorem Matches.exists_of_needs {sets : CharSet → Bool} (h : Matches p before text after)
    (hneeds : p.needs sets = true) :
    ∃ set, sets set = true ∧ ∃ c ∈ text, set.has c = true := by
  induction h with
  | nothing => contradiction
  | edge => contradiction
  | one hset => exact ⟨_, hneeds, _, List.mem_singleton_self _, hset⟩
  | seq _ _ ihp ihq =>
      rcases Bool.or_eq_true_iff.mp hneeds with hp | hq
      · obtain ⟨set, hset, c, hc, hhas⟩ := ihp hp
        exact ⟨set, hset, c, List.mem_append_left _ hc, hhas⟩
      · obtain ⟨set, hset, c, hc, hhas⟩ := ihq hq
        exact ⟨set, hset, c, List.mem_append_right _ hc, hhas⟩
  | left _ ih => exact ih (Bool.and_eq_true_iff.mp hneeds).1
  | right _ ih => exact ih (Bool.and_eq_true_iff.mp hneeds).2
  | done => contradiction
  | more => contradiction

theorem Matches.not_mem_of_avoids (h : Matches p before text after) (havoids : p.avoids c = true) :
    c ∉ text := by
  induction h with
  | nothing => exact List.not_mem_nil
  | edge => exact List.not_mem_nil
  | one hset =>
      intro hc
      cases List.mem_singleton.mp hc
      simp [avoids, hset] at havoids
  | seq _ _ ihp ihq =>
      obtain ⟨hp, hq⟩ := Bool.and_eq_true_iff.mp havoids
      exact List.not_mem_append (ihp hp) (ihq hq)
  | left _ ih => exact ih (Bool.and_eq_true_iff.mp havoids).1
  | right _ ih => exact ih (Bool.and_eq_true_iff.mp havoids).2
  | done => exact List.not_mem_nil
  | more _ _ ihp ihs => exact List.not_mem_append (ihp havoids) (ihs havoids)

-- A pattern occurs in a part of a text.

theorem found_iff : Found p before text ↔
    ∃ u v w, text = u ++ (v ++ w) ∧ Matches p (lastOr before u) v w.head? := by
  constructor
  · rintro ⟨u, _, rfl, v, w, rfl, h⟩
    exact ⟨u, v, w, rfl, h⟩
  · rintro ⟨u, v, w, rfl, h⟩
    exact ⟨u, _, rfl, v, w, rfl, h⟩

theorem found_or : Found (or p q) before text ↔ Found p before text ∨ Found q before text := by
  simp only [found_iff, matches_or, and_or_left, exists_or]

theorem found_oneOf {ps : List Pattern} :
    Found (oneOf ps) before text ↔ ∃ p ∈ ps, Found p before text := by
  fun_induction oneOf ps with
  | case1 => simp [found_iff, matches_never]
  | case2 p => simp
  | case3 p rest hrest ih =>
      rw [found_or, ih]
      simp

theorem not_found_of_needs (hneeds : p.needs (· = .exactly c) = true) (h : c ∉ text) :
    ¬Found p before text := by
  rw [found_iff]
  rintro ⟨u, v, w, rfl, hmatches⟩
  obtain ⟨set, hset, d, hd, hhas⟩ := hmatches.exists_of_needs hneeds
  cases of_decide_eq_true hset
  cases (beq_iff_eq.mp hhas : d = c)
  exact h (List.mem_append_right u (List.mem_append_left w hd))

end RequestGuard.Pattern
