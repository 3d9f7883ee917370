import RequestGuard.Proofs.Markup.Escaping

namespace RequestGuard.Markup

-- What may stand between the ampersand and the semicolon of an entity: a name of two to
-- thirty-two letters and digits that starts with a letter, or the number of a character.
inductive Entity : List Char → Prop where
  | named {first : Char} {others : List Char} (hfirst : first.isAlpha = true)
      (hothers : ∀ c ∈ others, c.isAlphanum = true) (hsome : 1 ≤ others.length)
      (hfew : others.length ≤ 31) : Entity (first :: others)
  | decimal {digits : List Char} (hdigits : ∀ c ∈ digits, c.isDigit = true)
      (hsome : 1 ≤ digits.length) (hfew : digits.length ≤ 7) : Entity ('#' :: digits)
  | hexadecimal {x : Char} {digits : List Char} (hx : x = 'x' ∨ x = 'X')
      (hdigits : ∀ c ∈ digits, Text.isHexDigit c = true) (hsome : 1 ≤ digits.length)
      (hfew : digits.length ≤ 6) : Entity ('#' :: x :: digits)

-- The entities that are written for a character, each with its character.
def marks : List (List Char × Char) :=
  [(lessThan, '<'), (greaterThan, '>'), (doubleQuote, '"'), (singleQuote, '\''), (ampersand, '&')]

-- If a text begins with one of these, the character it stands for and the rest behind it.
def pastMark (text : List Char) : Option (Char × List Char) :=
  (marks.find? (·.1.isPrefixOf text)).map fun mark => (mark.2, text.drop mark.1.length)

theorem entity_of_isEntity {body : List Char} (h : isEntity body = true) : Entity body := by
  rcases Bool.or_eq_true_iff.mp h with hnamed | hnumbered
  · cases body with
    | nil => simp [isNamed] at hnamed
    | cons first others =>
        simp only [isNamed, Bool.and_eq_true, decide_eq_true_eq, List.all_eq_true] at hnamed
        obtain ⟨⟨⟨hfirst, hothers⟩, hsome⟩, hfew⟩ := hnamed
        exact .named hfirst hothers hsome hfew
  · unfold isNumbered at hnumbered
    split at hnumbered
    · next digits =>
        rcases Bool.or_eq_true_iff.mp hnumbered with hdecimal | hhexadecimal
        · simp only [Bool.and_eq_true, decide_eq_true_eq, List.all_eq_true] at hdecimal
          obtain ⟨⟨hdigits, hsome⟩, hfew⟩ := hdecimal
          exact .decimal hdigits hsome hfew
        · split at hhexadecimal
          · next x hex =>
              simp only [Bool.and_eq_true, Bool.or_eq_true, beq_iff_eq, decide_eq_true_eq,
                List.all_eq_true] at hhexadecimal
              obtain ⟨⟨⟨hx, hdigits⟩, hsome⟩, hfew⟩ := hhexadecimal
              exact .hexadecimal hx hdigits hsome hfew
          · contradiction
    · contradiction

-- An entity ends at the first semicolon, so a text begins with one entity at most.
theorem entity_inj {a b s t : List Char} (ha : isEntity a = true) (hb : isEntity b = true)
    (h : a ++ ';' :: s = b ++ ';' :: t) : a = b ∧ s = t := by
  have hbefore : ∀ {body : List Char} (rest : List Char), isEntity body = true →
      (body ++ ';' :: rest).takeWhile (· != ';') = body := by
    intro body rest hbody
    rw [List.takeWhile_append_of_pos fun c hc => bne_iff_ne.mpr (isPlain_of_isEntity hbody c hc).2]
    simp
  have hab : a = b := by rw [← hbefore s ha, h, hbefore t hb]
  subst hab
  exact ⟨rfl, (List.cons.inj (List.append_cancel_left h)).2⟩

theorem body_of_mark {entity : List Char} {c : Char} (h : (entity, c) ∈ marks) :
    ∃ body, isEntity body = true ∧ entity = '&' :: (body ++ [';']) := by
  simp only [marks, List.mem_cons, Prod.mk.injEq, List.not_mem_nil, or_false] at h
  rcases h with ⟨rfl, -⟩ | ⟨rfl, -⟩ | ⟨rfl, -⟩ | ⟨rfl, -⟩ | ⟨rfl, -⟩
  · exact ⟨['l', 't'], by decide, by decide⟩
  · exact ⟨['g', 't'], by decide, by decide⟩
  · exact ⟨['q', 'u', 'o', 't'], by decide, by decide⟩
  · exact ⟨['#', 'x', '2', '7'], by decide, by decide⟩
  · exact ⟨['a', 'm', 'p'], by decide, by decide⟩

theorem marks_functional : ∀ mark ∈ marks, ∀ other ∈ marks, mark.1 = other.1 → mark = other := by
  decide

-- A text begins with one of the five only, since it begins with one entity only.
theorem mark_unique {entity other s t : List Char} {c d : Char} (h : (entity, c) ∈ marks)
    (hother : (other, d) ∈ marks) (heq : entity ++ s = other ++ t) :
    entity = other ∧ c = d ∧ s = t := by
  obtain ⟨a, ha, hentity⟩ := body_of_mark h
  obtain ⟨b, hb, hshape⟩ := body_of_mark hother
  rw [hentity, hshape] at heq
  simp only [List.cons_append, List.append_assoc, List.nil_append, List.cons.injEq, true_and] at heq
  obtain ⟨rfl, rfl⟩ := entity_inj ha hb heq
  have hsame : entity = other := hentity.trans hshape.symm
  exact ⟨hsame, congrArg Prod.snd (marks_functional _ h _ hother hsame), rfl⟩

theorem pastMark_eq_some_iff {text after : List Char} {c : Char} :
    pastMark text = some (c, after) ↔ ∃ entity, (entity, c) ∈ marks ∧ text = entity ++ after := by
  have hfound : ∀ {mark : List Char × Char}, marks.find? (·.1.isPrefixOf text) = some mark →
      mark ∈ marks ∧ text = mark.1 ++ text.drop mark.1.length := by
    intro mark hfind
    have hstarts : mark.1.isPrefixOf text = true :=
      List.find?_some (p := fun mark : List Char × Char => mark.1.isPrefixOf text) hfind
    obtain ⟨rest, rfl⟩ := List.isPrefixOf_iff_prefix.mp hstarts
    exact ⟨List.mem_of_find?_eq_some hfind, by simp⟩
  simp only [pastMark, Option.map_eq_some_iff, Prod.mk.injEq]
  constructor
  · rintro ⟨mark, hfind, rfl, rfl⟩
    exact ⟨mark.1, hfound hfind⟩
  · rintro ⟨entity, hmark, htext⟩
    have hsome : (marks.find? (·.1.isPrefixOf text)).isSome := by
      rw [List.find?_isSome]
      exact ⟨_, hmark, List.isPrefixOf_iff_prefix.mpr ⟨after, htext.symm⟩⟩
    obtain ⟨mark, hfind⟩ := Option.isSome_iff_exists.mp hsome
    obtain ⟨hmem, hsplit⟩ := hfound hfind
    obtain ⟨-, hc, hafter⟩ := mark_unique hmem hmark (hsplit.symm.trans htext)
    exact ⟨mark, hfind, hc, hafter⟩

theorem length_lt_of_pastMark {text after : List Char} {c : Char}
    (h : pastMark text = some (c, after)) : after.length < text.length := by
  obtain ⟨entity, hmark, rfl⟩ := pastMark_eq_some_iff.mp h
  obtain ⟨body, -, rfl⟩ := body_of_mark hmark
  simp only [List.length_append, List.length_cons]
  omega

-- One pass from left to right that puts a character for each of the five entities.
def decoded (text : List Char) : List Char :=
  match text with
  | [] => []
  | c :: rest =>
    match h : pastMark (c :: rest) with
    | some (d, after) =>
      have := length_lt_of_pastMark h
      d :: decoded after
    | none => c :: decoded rest
termination_by text.length
decreasing_by
  · assumption
  · exact Nat.lt_succ_self rest.length

@[simp] theorem decoded_nil : decoded [] = [] := by
  rw [decoded]

theorem decoded_of_some {text after : List Char} {c : Char}
    (h : pastMark text = some (c, after)) : decoded text = c :: decoded after := by
  cases text with
  | nil => exact absurd (length_lt_of_pastMark h) (Nat.not_lt_zero _)
  | cons d rest =>
      rw [decoded]
      split
      · next hsome =>
          cases h.symm.trans hsome
          rfl
      · next hnone => exact absurd (h.symm.trans hnone) (by simp)

theorem decoded_mark {entity : List Char} {c : Char} (h : (entity, c) ∈ marks)
    (after : List Char) : decoded (entity ++ after) = c :: decoded after :=
  decoded_of_some (pastMark_eq_some_iff.mpr ⟨entity, h, rfl⟩)

theorem decoded_of_none {c : Char} {rest : List Char} (h : pastMark (c :: rest) = none) :
    decoded (c :: rest) = c :: decoded rest := by
  rw [decoded]
  split
  · next d after hsome => exact absurd (h.symm.trans hsome) (by simp)
  · rfl

theorem startsEntity_of_pastMark {c d : Char} {rest after : List Char}
    (h : pastMark (c :: rest) = some (d, after)) : c = '&' ∧ startsEntity rest = true := by
  obtain ⟨entity, hmark, htext⟩ := pastMark_eq_some_iff.mp h
  obtain ⟨body, hbody, rfl⟩ := body_of_mark hmark
  rw [List.cons_append, List.append_assoc, List.singleton_append] at htext
  obtain ⟨rfl, rfl⟩ := List.cons.inj htext
  exact ⟨rfl, (startsEntity_iff _).mpr ⟨body, after, hbody, rfl⟩⟩

-- With which entity a text begins is decided before its first semicolon, and escaping changes
-- nothing there.
theorem pastMark_escaped {rest : List Char} (h : startsEntity rest = true) :
    pastMark ('&' :: escaped rest) =
      (pastMark ('&' :: rest)).map fun (c, after) => (c, escaped after) := by
  obtain ⟨body, after, hbody, rfl⟩ := (startsEntity_iff rest).mp h
  have hplain : ∀ c ∈ body, isPlain c = true := fun c hc => (isPlain_of_isEntity hbody c hc).1
  have hmark : ∀ {d : Char} {s t : List Char}, pastMark ('&' :: (body ++ ';' :: s)) = some (d, t) ↔
      ('&' :: (body ++ [';']), d) ∈ marks ∧ s = t := by
    intro d s t
    rw [pastMark_eq_some_iff]
    constructor
    · rintro ⟨entity, hmem, htext⟩
      obtain ⟨other, hother, rfl⟩ := body_of_mark hmem
      rw [List.cons_append, List.append_assoc, List.singleton_append] at htext
      obtain ⟨rfl, rfl⟩ := entity_inj hbody hother (List.cons.inj htext).2
      exact ⟨hmem, rfl⟩
    · rintro ⟨hmem, rfl⟩
      exact ⟨_, hmem, by simp⟩
  rw [escaped_append_of_plain hplain, escaped_of_plain (by decide)]
  ext ⟨d, t⟩
  simp only [Option.map_eq_some_iff, Prod.exists, Prod.mk.injEq, hmark]
  constructor
  · rintro ⟨hmem, rfl⟩
    exact ⟨d, after, ⟨hmem, rfl⟩, rfl, rfl⟩
  · rintro ⟨_, _, ⟨hmem, rfl⟩, rfl, rfl⟩
    exact ⟨hmem, rfl⟩

-- A character is written as the entity that stands for it, or it stays. Only an ampersand can do
-- either, depending on what follows it.
theorem escaped_marked_or_kept (c : Char) (rest : List Char) :
    (∃ entity, (entity, c) ∈ marks ∧ escaped (c :: rest) = entity ++ escaped rest ∧
      (c = '&' → startsEntity rest = false)) ∨
    escaped (c :: rest) = c :: escaped rest ∧ (c = '&' → startsEntity rest = true) := by
  simp only [escaped, beq_iff_eq]
  split_ifs with hless hgreater hdouble hsingle hand
  · exact .inl ⟨lessThan, by simp [marks, hless], rfl, by simp [hless]⟩
  · exact .inl ⟨greaterThan, by simp [marks, hgreater], rfl, by simp [hgreater]⟩
  · exact .inl ⟨doubleQuote, by simp [marks, hdouble], rfl, by simp [hdouble]⟩
  · exact .inl ⟨singleQuote, by simp [marks, hsingle], rfl, by simp [hsingle]⟩
  · simp only [Bool.and_eq_true, beq_iff_eq, Bool.not_eq_true'] at hand
    exact .inl ⟨ampersand, by simp [marks, hand.1], rfl, fun _ => hand.2⟩
  · refine .inr ⟨rfl, fun hc => ?_⟩
    simpa [hc] using hand

theorem decoded_escaped (text : List Char) : decoded (escaped text) = decoded text := by
  fun_induction decoded text with
  | case1 => exact decoded_nil
  | case2 c rest d after h _ ih =>
      obtain ⟨rfl, hstarts⟩ := startsEntity_of_pastMark h
      rcases escaped_marked_or_kept '&' rest with ⟨-, -, -, hnot⟩ | ⟨hescaped, -⟩
      · exact absurd hstarts (by simp [hnot rfl])
      · have hpast : pastMark ('&' :: escaped rest) = some (d, escaped after) := by
          rw [pastMark_escaped hstarts, h, Option.map_some]
        rw [hescaped, decoded_of_some hpast, ih]
  | case3 c rest h ih =>
      rcases escaped_marked_or_kept c rest with ⟨entity, hmark, hescaped, -⟩ | ⟨hescaped, hstarts⟩
      · rw [hescaped, decoded_mark hmark, ih]
      · have hpast : pastMark (c :: escaped rest) = none := by
          by_cases hc : c = '&'
          · subst hc
            rw [pastMark_escaped (hstarts rfl), h, Option.map_none]
          · rw [Option.eq_none_iff_forall_ne_some]
            exact fun _ hsome => hc (startsEntity_of_pastMark hsome).1
        rw [hescaped, decoded_of_none hpast, ih]

theorem startsEntity_of_safe {before after : List Char} (h : Safe (before ++ '&' :: after)) :
    startsEntity after = true := by
  induction before with
  | nil => exact h.2.1 rfl
  | cons c rest ih => exact ih h.2.2

end RequestGuard.Markup

namespace RequestGuard

open Markup

def decodeMarkup (s : String) : String :=
  String.ofList (decoded s.toList)

-- An escaped text has no markup in it and no ampersand but those that begin an entity, and it
-- stands for the same text as before.
theorem escaping_safe_and_lossless (s : String) :
    (∀ c ∈ (escapeMarkup s).toList, c ∉ ['<', '>', '"', '\'']) ∧
    (∀ before after, (escapeMarkup s).toList = before ++ '&' :: after →
      ∃ body rest, Entity body ∧ after = body ++ ';' :: rest) ∧
    decodeMarkup (escapeMarkup s) = decodeMarkup s := by
  have hsafe := safe_escaped s.toList
  simp only [escapeMarkup, decodeMarkup, String.toList_ofList, decoded_escaped, and_true]
  refine ⟨fun c hc => ?_, fun before after hsplit => ?_⟩
  · have hplain := not_isMarkup_of_safe hsafe c hc
    simpa [isMarkup, and_assoc] using hplain
  · obtain ⟨body, rest, hbody, hafter⟩ :=
      (startsEntity_iff after).mp (startsEntity_of_safe (hsplit ▸ hsafe))
    exact ⟨body, rest, entity_of_isEntity hbody, hafter⟩

-- All five entities, the last of them for an ampersand that begins none.
example : escapeMarkup "<a href=\"b\">c's &amp; d&e</a>" =
    "&lt;a href=&quot;b&quot;&gt;c&#x27;s &amp; d&amp;e&lt;/a&gt;" := by
  decide +kernel

example : decodeMarkup "&lt;&gt;&quot;&#x27;&amp;lt;" = "<>\"'&lt;" := by
  decide +kernel

end RequestGuard
