import RequestGuard.Attack
import RequestGuard.Proofs.Markup.Escaping
import RequestGuard.Proofs.Pattern.Characters

namespace RequestGuard.Markup

open Pattern (isWordAt lastOr lastOr_cons lastOr_append)

-- A character is written as it is, or else as an entity that takes the place of a character
-- which belongs to no word.
theorem escaped_cons (c : Char) (rest : List Char) :
    escaped (c :: rest) = c :: escaped rest ∨
      (Text.isWord c = false ∧ isPlain c = false ∧ ∃ name, (∀ d ∈ name, isEntityChar d = true) ∧
        escaped (c :: rest) = '&' :: (name ++ ';' :: escaped rest)) := by
  simp only [escaped]
  split_ifs with h₁ h₂ h₃ h₄ h₅
  · obtain rfl := beq_iff_eq.mp h₁
    exact .inr ⟨by decide +kernel, rfl, ['l', 't'], List.all_eq_true.mp (by decide), rfl⟩
  · obtain rfl := beq_iff_eq.mp h₂
    exact .inr ⟨by decide +kernel, rfl, ['g', 't'], List.all_eq_true.mp (by decide), rfl⟩
  · obtain rfl := beq_iff_eq.mp h₃
    exact .inr ⟨by decide +kernel, rfl, ['q', 'u', 'o', 't'], List.all_eq_true.mp (by decide), rfl⟩
  · obtain rfl := beq_iff_eq.mp h₄
    exact .inr ⟨by decide +kernel, rfl, ['#', 'x', '2', '7'], List.all_eq_true.mp (by decide), rfl⟩
  · obtain rfl := beq_iff_eq.mp (Bool.and_eq_true_iff.mp h₅).1
    exact .inr ⟨by decide +kernel, rfl, ['a', 'm', 'p'], List.all_eq_true.mp (by decide), rfl⟩
  · exact .inl rfl

theorem isWordAt_escaped (text : List Char) :
    isWordAt (escaped text).head? = isWordAt text.head? := by
  cases text with
  | nil => rfl
  | cons c rest =>
      rcases escaped_cons c rest with h | ⟨hc, -, name, -, h⟩
      · rw [h, List.head?_cons, List.head?_cons]
      · have hand : Text.isWord '&' = false := by decide +kernel
        rw [h, List.head?_cons, List.head?_cons, isWordAt, isWordAt, hc, hand]

variable {text u v w : List Char}

-- A part without ampersands that an escaped text starts with is there before the escaping.
theorem prefix_of_escaped (h : escaped text = v ++ w) (hand : '&' ∉ v) :
    ∃ rest, text = v ++ rest ∧ escaped rest = w := by
  induction v generalizing text with
  | nil => exact ⟨text, rfl, h⟩
  | cons d v ih =>
      rw [List.mem_cons, not_or] at hand
      cases text with
      | nil => contradiction
      | cons c rest =>
          rcases escaped_cons c rest with hc | ⟨-, -, name, -, hc⟩
          · obtain ⟨rfl, hrest⟩ := List.cons.inj (hc.symm.trans h)
            obtain ⟨behind, rfl, hbehind⟩ := ih hrest hand.2
            exact ⟨behind, rfl, hbehind⟩
          · exact absurd (List.cons.inj (hc.symm.trans h)).1 hand.1

-- A part that stands in no entity: it has neither of the signs around one, and a character
-- that is in none.
structure Apart (v : List Char) : Prop where
  no_ampersand : '&' ∉ v
  no_semicolon : ';' ∉ v
  other : ∃ c ∈ v, isEntityChar c = false

theorem Apart.not_subset {name : List Char} (hv : Apart v)
    (hname : ∀ d ∈ name, isEntityChar d = true) : ¬v ⊆ name := by
  obtain ⟨c, hc, hother⟩ := hv.other
  intro hsubset
  exact absurd ((hname c (hsubset hc)).symm.trans hother) (by decide)

theorem Apart.not_in_entity (hv : Apart v) {name rest : List Char}
    (hname : ∀ d ∈ name, isEntityChar d = true) : name ++ ';' :: rest ≠ v ++ w := by
  intro h
  rcases List.append_eq_append_iff.mp h with ⟨more, rfl, hmore⟩ | ⟨more, rfl, -⟩
  · cases more with
    | nil => exact hv.not_subset hname (by simp)
    | cons d more =>
        cases (List.cons.inj hmore).1
        exact hv.no_semicolon (by simp)
  · exact hv.not_subset hname (by simp)

-- If it comes after the beginning of an entity, it comes after its end.
theorem Apart.behind_entity (hv : Apart v) {name rest : List Char}
    (hname : ∀ d ∈ name, isEntityChar d = true) (h : name ++ ';' :: rest = u ++ (v ++ w)) :
    ∃ between, u = name ++ ';' :: between ∧ rest = between ++ (v ++ w) := by
  induction name generalizing u with
  | nil =>
      cases u with
      | nil => exact absurd h (hv.not_in_entity hname)
      | cons d u =>
          obtain ⟨rfl, hrest⟩ := List.cons.inj h
          exact ⟨u, rfl, hrest⟩
  | cons c name ih =>
      cases u with
      | nil => exact absurd h (hv.not_in_entity hname)
      | cons d u =>
          obtain ⟨rfl, hmore⟩ := List.cons.inj h
          obtain ⟨between, rfl, hrest⟩ := ih (List.forall_mem_cons.mp hname).2 hmore
          exact ⟨between, rfl, hrest⟩

-- A part of an escaped text that stands in no entity is there before the escaping, with the
-- same kind of character before it.
theorem factor_of_escaped (hv : Apart v) (h : escaped text = u ++ (v ++ w))
    {before before' : Option Char} (hbefore : isWordAt before' = isWordAt before) :
    ∃ u' w', text = u' ++ (v ++ w') ∧ escaped w' = w ∧
      isWordAt (lastOr before' u') = isWordAt (lastOr before u) ∧
      ∀ c ∈ u', isPlain c = true → c ∈ u := by
  induction text generalizing u before before' with
  | nil =>
      obtain ⟨c, hc, -⟩ := hv.other
      have hnil := (List.append_eq_nil_iff.mp (List.append_eq_nil_iff.mp h.symm).2).1
      exact absurd (hnil ▸ hc) List.not_mem_nil
  | cons c rest ih =>
      cases u with
      | nil =>
          obtain ⟨w', htext, hw⟩ := prefix_of_escaped (v := v) h hv.no_ampersand
          exact ⟨[], w', htext, hw, hbefore, by simp⟩
      | cons d u =>
          rcases escaped_cons c rest with hc | ⟨hword, hplain, name, hname, hc⟩
          · obtain ⟨rfl, hrest⟩ := List.cons.inj (hc.symm.trans h)
            obtain ⟨u', w', rfl, hw, hlast, hmem⟩ := ih hrest (rfl : isWordAt (some c) = isWordAt (some c))
            refine ⟨c :: u', w', rfl, hw, ?_, fun e he hplain => ?_⟩
            · rw [lastOr_cons, lastOr_cons, hlast]
            · rcases List.mem_cons.mp he with rfl | he
              · exact List.mem_cons_self
              · exact List.mem_cons_of_mem _ (hmem e he hplain)
          · obtain ⟨rfl, hrest⟩ := List.cons.inj (hc.symm.trans h)
            obtain ⟨between, rfl, hbehind⟩ := hv.behind_entity hname hrest
            have hsemicolon : isWordAt (some c) = isWordAt (some ';') := by
              have hclose : Text.isWord ';' = false := by decide +kernel
              rw [isWordAt, isWordAt, hword, hclose]
            obtain ⟨u', w', rfl, hw, hlast, hmem⟩ := ih hbehind hsemicolon
            refine ⟨c :: u', w', rfl, hw, ?_, fun e he hkept => ?_⟩
            · rw [lastOr_cons, hlast, lastOr_cons, lastOr_append, lastOr_cons]
            · rcases List.mem_cons.mp he with rfl | he
              · exact absurd (hkept.symm.trans hplain) (by decide)
              · simp [hmem e he hkept]

end RequestGuard.Markup

namespace RequestGuard.Attack

open Pattern Markup

variable {p : Pattern} {text : List Char}

-- The sets whose characters stand in no entity.
def separates : CharSet → Bool
  | .blank => true
  | .exactly c => !isEntityChar c
  | _ => false

theorem toNat_of_isEntityChar {c : Char} (h : isEntityChar c = true) :
    0x23 = c.toNat ∨ (0x30 ≤ c.toNat ∧ c.toNat ≤ 0x39) ∨ (0x41 ≤ c.toNat ∧ c.toNat ≤ 0x5A) ∨
      (0x61 ≤ c.toNat ∧ c.toNat ≤ 0x7A) := by
  simp only [isEntityChar, Bool.or_eq_true, beq_iff_eq] at h
  rcases h with halphanum | rfl
  · have hranges : c.isAlphanum = (decide (c.val ≥ 'A'.val ∧ c.val ≤ 'Z'.val) ||
        (decide (c.val ≥ 'a'.val) && decide (c.val ≤ 'z'.val)) ||
        (decide (c.val ≥ '0'.val) && decide (c.val ≤ '9'.val))) := rfl
    simp only [hranges, Bool.or_eq_true, Bool.and_eq_true, decide_eq_true_eq,
      UInt32.le_iff_toNat_le, ge_iff_le] at halphanum
    change (((65 ≤ c.toNat ∧ c.toNat ≤ 90) ∨ (97 ≤ c.toNat ∧ c.toNat ≤ 122)) ∨
      (48 ≤ c.toNat ∧ c.toNat ≤ 57)) at halphanum
    omega
  · exact .inl rfl

theorem not_isEntityChar_of_isBlank {c : Char} (h : Text.isBlank c = true) :
    isEntityChar c = false := by
  rw [Bool.eq_false_iff]
  intro hentity
  have hrange := toNat_of_isEntityChar hentity
  simp only [Text.isBlank, Bool.or_eq_true, Bool.and_eq_true, decide_eq_true_eq, beq_iff_eq] at h
  omega

theorem not_isEntityChar_of_separates {set : CharSet} (hset : separates set = true) {c : Char}
    (hc : set.has c = true) : isEntityChar c = false := by
  cases set with
  | blank => exact not_isEntityChar_of_isBlank hc
  | exactly d =>
      cases (beq_iff_eq.mp hc : c = d)
      simpa [separates] using hset
  | _ => contradiction

-- What such a pattern matches in an escaped text stands in no entity.
def isApart (p : Pattern) : Bool :=
  p.avoids '&' && p.avoids ';' && p.needs separates

theorem apart_of_matches {before after : Option Char} (hp : isApart p = true)
    (h : Matches p before text after) : Apart text := by
  simp only [isApart, Bool.and_eq_true] at hp
  obtain ⟨⟨hand, hsemicolon⟩, hneeds⟩ := hp
  obtain ⟨set, hset, c, hc, hhas⟩ := h.exists_of_needs hneeds
  exact ⟨h.not_mem_of_avoids hand, h.not_mem_of_avoids hsemicolon, c, hc,
    not_isEntityChar_of_separates hset hhas⟩

theorem found_of_escaped (hp : isApart p = true) (h : Found p none (escaped text)) :
    Found p none text := by
  obtain ⟨u, v, w, htext, hmatches⟩ := found_iff.mp h
  obtain ⟨u', w', rfl, rfl, hlast, -⟩ :=
    factor_of_escaped (apart_of_matches hp hmatches) htext (rfl : isWordAt none = isWordAt none)
  exact found_iff.mpr ⟨u', v, w', rfl, hmatches.congr hlast.symm (isWordAt_escaped w')⟩

-- No character of markup is left in an escaped text.
theorem not_found_escaped {c : Char} (hc : isMarkup c = true)
    (hp : p.needs (· = .exactly c) = true) : ¬Found p none (escaped text) :=
  not_found_of_needs hp fun hmem =>
    absurd (hc.symm.trans (not_isMarkup_of_safe (safe_escaped text) c hmem)) (by decide)

def frontOfDataUrl : List Pattern :=
  [edge, keyword "data", blanks, char ':', blanks, plus (one .letter), char '/',
    plus (one mediaCharacter), blanks]

theorem matches_dataUrl {before after : Option Char} : Matches dataUrl before text after ↔
    ∃ u c, text = u ++ [c] ∧ Matches (ofList frontOfDataUrl) before u (some c) ∧
      (CharSet.anyOf [';', ',']).has c = true := by
  have hsplit : dataUrl = ofList (frontOfDataUrl ++ [one (.anyOf [';', ','])]) := rfl
  rw [hsplit, matches_ofList_append]
  constructor
  · rintro ⟨u, _, rfl, hfront, hlast⟩
    obtain ⟨c, rfl, hc⟩ := matches_one.mp hlast
    exact ⟨u, c, rfl, hfront, hc⟩
  · rintro ⟨u, c, rfl, hfront, hc⟩
    exact ⟨u, [c], rfl, hfront, .one hc⟩

-- The last character may be a semicolon, but not that of an entity: the rest would have to lie
-- in the entity.
theorem dataUrl_of_escaped (h : Found dataUrl none (escaped text)) : Found dataUrl none text := by
  obtain ⟨u, _, w, htext, hmatches⟩ := found_iff.mp h
  obtain ⟨a, c, rfl, hfront, hc⟩ := matches_dataUrl.mp hmatches
  have hapart : Apart a := apart_of_matches (by decide +kernel) hfront
  rw [List.append_assoc] at htext
  obtain ⟨u', w', rfl, hw, hbefore, -⟩ :=
    factor_of_escaped hapart htext (rfl : isWordAt none = isWordAt none)
  have hand : '&' ∉ [c] := by
    intro hmem
    cases List.mem_singleton.mp hmem
    exact absurd hc (by decide)
  obtain ⟨rest, rfl, -⟩ := prefix_of_escaped hw hand
  refine found_iff.mpr ⟨u', a ++ [c], rest, by simp, ?_⟩
  exact matches_dataUrl.mpr ⟨a, c, rfl, hfront.congr hbefore.symm rfl, hc⟩

-- In an escaped text only addresses are left to match.
theorem url_of_escaped (h : Found script none (escaped text)) :
    Found scriptUrl none (escaped text) ∨ Found dataUrl none (escaped text) := by
  obtain ⟨p, hp, hfound⟩ := found_oneOf.mp h
  simp only [List.mem_cons, List.not_mem_nil, or_false] at hp
  rcases hp with rfl | rfl | rfl | rfl | rfl
  · exact absurd hfound (not_found_escaped (c := '<') rfl (by decide +kernel))
  · exact absurd hfound (not_found_escaped (c := '<') rfl (by decide +kernel))
  · exact .inl hfound
  · exact .inr hfound
  · exact absurd hfound (not_found_escaped (c := '<') rfl (by decide +kernel))

-- Escaping completes no script pattern.
theorem script_of_escaped (h : Found script none (escaped text)) : Found script none text := by
  rcases url_of_escaped h with hscript | hdata
  · exact found_oneOf.mpr ⟨scriptUrl, by simp, found_of_escaped (by decide +kernel) hscript⟩
  · exact found_oneOf.mpr ⟨dataUrl, by simp, dataUrl_of_escaped hdata⟩

def frontOfCommented : List Pattern :=
  [edge, oneOf [selectFrom, insertInto, deleteFrom, dropTable, updateSet], edge]

theorem matches_commentedStatement {before after : Option Char} :
    Matches commentedStatement before text after ↔
      ∃ u m v, text = u ++ (m ++ v) ∧
        Matches (ofList frontOfCommented) before u (firstOr (m ++ v) after) ∧
        (∀ c ∈ m, c ≠ '\n') ∧
        Matches (or dashes slashStar) (lastOr (lastOr before u) m) v after := by
  have hsplit : commentedStatement = ofList (frontOfCommented ++
      [star (one (.except (.exactly '\n'))), or dashes slashStar]) := rfl
  have hline : ∀ m : List Char, (∀ c ∈ m, (CharSet.except (.exactly '\n')).has c = true) ↔
      ∀ c ∈ m, c ≠ '\n' := by
    intro m
    simp [CharSet.has]
  rw [hsplit, matches_ofList_append]
  simp only [ofList, matches_seq, matches_starOne, hline]
  constructor
  · rintro ⟨u, _, rfl, hfront, m, v, rfl, hm, hv⟩
    exact ⟨u, m, v, rfl, hfront, hm, hv⟩
  · rintro ⟨u, m, v, rfl, hfront, hm, hv⟩
    exact ⟨u, _, rfl, hfront, m, v, rfl, hm, hv⟩

-- What stands between the statement and its comment may hold entities, but no line ends in them.
theorem commentedStatement_of_escaped (h : Found commentedStatement none (escaped text)) :
    Found commentedStatement none text := by
  obtain ⟨u, _, w, htext, hmatches⟩ := found_iff.mp h
  obtain ⟨a, m, v, rfl, hfront, hm, hv⟩ := matches_commentedStatement.mp hmatches
  have hstatement : Apart a := apart_of_matches (by decide +kernel) hfront
  have hcomment : Apart v := apart_of_matches (by decide +kernel) hv
  simp only [List.append_assoc] at htext
  obtain ⟨u', w', rfl, hw, hbefore, -⟩ :=
    factor_of_escaped hstatement htext (rfl : isWordAt none = isWordAt none)
  obtain ⟨m', w'', rfl, rfl, hbetween, hkept⟩ :=
    factor_of_escaped hcomment hw (isWordAt_lastOr hbefore a)
  refine found_iff.mpr ⟨u', a ++ (m' ++ v), w'', by simp, ?_⟩
  refine matches_commentedStatement.mpr ⟨a, m', v, rfl, ?_, ?_, ?_⟩
  · refine hfront.congr hbefore.symm ?_
    rw [firstOr_head, firstOr_head, List.append_assoc, List.append_assoc, ← hw]
    exact isWordAt_escaped _
  · rintro c hc rfl
    exact hm _ (hkept _ hc (by decide)) rfl
  · exact hv.congr hbetween.symm (isWordAt_escaped w'')

-- Of the query patterns escaping completes only that of a statement after a semicolon, which
-- may be the one that ends an entity.
theorem query_of_escaped (h : Found query none (escaped text)) :
    Found query none text ∨ Found stackedStatement none (escaped text) := by
  obtain ⟨p, hp, hfound⟩ := found_oneOf.mp h
  have hquery : Found p none text → Found query none text := fun h => found_oneOf.mpr ⟨p, hp, h⟩
  simp only [List.mem_cons, List.not_mem_nil, or_false] at hp
  rcases hp with rfl | rfl | rfl | rfl | rfl | rfl | rfl
  · exact .inl (hquery (found_of_escaped (by decide +kernel) hfound))
  · exact absurd hfound (not_found_escaped (c := '\'') rfl (by decide +kernel))
  · exact .inl (hquery (found_of_escaped (by decide +kernel) hfound))
  · exact .inl (hquery (commentedStatement_of_escaped hfound))
  · exact .inr hfound
  · exact absurd hfound (not_found_escaped (c := '\'') rfl (by decide +kernel))
  · rcases found_or.mp hfound with hcall | hwait
    · exact .inl (hquery (found_or.mpr (.inl (found_of_escaped (by decide +kernel) hcall))))
    · exact absurd hwait (not_found_escaped (c := '\'') rfl (by decide +kernel))

end RequestGuard.Attack
