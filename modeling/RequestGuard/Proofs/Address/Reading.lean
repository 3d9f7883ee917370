import RequestGuard.Proofs.Address.Spelling

namespace RequestGuard.Address

open Text (Ends span_iff ends_mark)

variable {text rest head tail row : List Char} {p : Char → Bool} {a b c d : Octet} {group : Group}
  {groups front back : List Group} {ended first : Bool} {room : Nat} {address : Address}

-- Where one of the parts cannot begin

theorem readOctets_of_ends (h : Ends Char.isDigit text) : readOctets text = none := by
  rw [Option.eq_none_iff_forall_ne_some]
  rintro ⟨⟨a, b, c, d⟩, rest⟩ hread
  obtain ⟨rfl, -⟩ := readOctets_iff.mp hread
  obtain ⟨first, more, hdigits⟩ := List.exists_cons_of_ne_nil (Numeral.digits_ne_nil a)
  have hfirst : first.isDigit = true := Numeral.digits_isDigit a first (by simp [hdigits])
  have hstop := h first (by simp [octets, hdigits])
  exact absurd (hfirst.symm.trans hstop) (by decide)

theorem readGroup_of_ends (h : Ends Text.isHexDigit text) : readGroup text = none := by
  rw [Option.eq_none_iff_forall_ne_some]
  rintro ⟨group, rest⟩ hread
  obtain ⟨digits, rfl, hgroup, -⟩ := readGroup_iff.mp hread
  obtain ⟨first, more, rfl⟩ := List.exists_cons_of_ne_nil hgroup.nonempty
  have hfirst := hgroup.hex first List.mem_cons_self
  have hstop := h first rfl
  exact absurd (hfirst.symm.trans hstop) (by decide)

-- The digits of a group are taken for octets only in front of a point.
theorem readOctets_group (h : SpellsGroup text group) (hrest : Ends (· != ':') rest) :
    readOctets (text ++ rest) = none := by
  have hhex : Ends Text.isHexDigit rest := by
    intro c hc
    have hcolon : c = ':' := by simpa using hrest c hc
    rw [hcolon]
    decide
  rw [Option.eq_none_iff_forall_ne_some]
  rintro ⟨⟨a, b, c, d⟩, behind⟩ hread
  obtain ⟨heq, -⟩ := readOctets_iff.mp hread
  have hdigits : ∀ c ∈ Numeral.digits a, Text.isHexDigit c = true := fun c hc =>
    isHexDigit_of_isDigit (Numeral.digits_isDigit a c hc)
  obtain ⟨-, hdrop⟩ := span_iff.mpr ⟨rfl, h.hex, hhex⟩
  simp only [heq, octets, List.append_assoc, List.dropWhile_append_of_pos hdigits] at hdrop
  have hpoint : rest.head? = some '.' := by
    rw [← hdrop]
    rfl
  exact absurd (hrest '.' hpoint) (by decide)

-- What ends a row: the end of the text, or two colons.
inductive Stops : List Char → Prop where
  | nothing : Stops []
  | colons (rest : List Char) : Stops (':' :: ':' :: rest)

theorem Stops.ends (h : Stops rest) (hcolon : p ':' = false) : Ends p rest := by
  cases h with
  | nothing =>
      intro c hc
      cases hc
  | colons rest => exact ends_mark hcolon _

-- The rounds of the reader of groups

theorem readGroups_octets (h : (separated first text).bind readOctets = some ((a, b, c, d), rest))
    (hroom : room ≠ 0) :
    readGroups (room + 1) first text = ([pair a b, pair c d], true, rest) := by
  simp only [readGroups, if_neg hroom, h]

theorem readGroups_group (hoctets : room = 0 ∨ (separated first text).bind readOctets = none)
    (h : (separated first text).bind readGroup = some (group, rest)) :
    readGroups (room + 1) first text =
      (group :: (readGroups room false rest).1, (readGroups room false rest).2) := by
  have hnone : (if room = 0 then none else (separated first text).bind readOctets) = none := by
    rcases hoctets with hzero | hnone
    · exact if_pos hzero
    · rw [hnone, ite_self]
  simp only [readGroups, hnone, h]

theorem readGroups_none (hoctets : room = 0 ∨ (separated first text).bind readOctets = none)
    (h : (separated first text).bind readGroup = none) :
    readGroups (room + 1) first text = ([], false, text) := by
  have hnone : (if room = 0 then none else (separated first text).bind readOctets) = none := by
    rcases hoctets with hzero | hnone
    · exact if_pos hzero
    · rw [hnone, ite_self]
  simp only [readGroups, hnone, h]

theorem bind_spaced (first : Bool) (text : List Char) (read : List Char → Option α) :
    (separated first (spaced first text)).bind read = read text := by
  rw [separated_iff.mpr rfl, Option.bind_some]

theorem readGroups_stops (h : Stops rest) (room : Nat) (first : Bool) :
    readGroups room first rest = ([], false, rest) := by
  cases room with
  | zero => rfl
  | succ room =>
      have hseparated : separated first rest = none ∨
          ∃ text, separated first rest = some text ∧ Ends Text.isHexDigit text := by
        cases first with
        | true => exact .inr ⟨rest, rfl, h.ends rfl⟩
        | false =>
            cases h with
            | nothing => exact .inl rfl
            | colons rest => exact .inr ⟨':' :: rest, rfl, ends_mark rfl rest⟩
      rcases hseparated with hnone | ⟨text, hsome, hends⟩
      · exact readGroups_none (.inr (by rw [hnone, Option.bind_none]))
          (by rw [hnone, Option.bind_none])
      · have hdigits : Ends Char.isDigit text := by
          intro c hc
          have hhex := hends c hc
          simp only [Text.isHexDigit, Bool.or_eq_false_iff] at hhex
          exact hhex.1.1
        apply readGroups_none
        · exact .inr (by rw [hsome, Option.bind_some, readOctets_of_ends hdigits])
        · rw [hsome, Option.bind_some, readGroup_of_ends hends]

theorem readGroups_row (h : SpellsRow row groups ended) (hlength : groups.length ≤ room)
    (hrest : Stops rest) (first : Bool) :
    readGroups room first (spaced first (row ++ rest)) = (groups, ended, rest) := by
  induction h generalizing room first with
  | @one text _ hgroup =>
      obtain ⟨room, rfl⟩ := Nat.exists_eq_succ_of_ne_zero (Nat.ne_of_gt hlength)
      have hcolon : Ends (· != ':') rest := hrest.ends rfl
      have hgroup' := readGroup_iff.mpr ⟨text, rfl, hgroup, hrest.ends rfl⟩
      have hread := (bind_spaced first _ readGroup).trans hgroup'
      have hoctets := (bind_spaced first _ readOctets).trans (readOctets_group hgroup hcolon)
      rw [readGroups_group (.inr hoctets) hread, readGroups_stops hrest]
  | octets a b c d =>
      have hroom : 2 ≤ room := hlength
      obtain ⟨room, rfl⟩ := Nat.exists_eq_succ_of_ne_zero (show room ≠ 0 by omega)
      have hread : readOctets (octets a b c d ++ rest) = some ((a, b, c, d), rest) :=
        readOctets_iff.mpr ⟨rfl, hrest.ends rfl⟩
      apply readGroups_octets
      · rw [bind_spaced, hread]
      · omega
  | @more text behind _ groups ended hgroup _ ih =>
      have hroom : groups.length + 1 ≤ room := hlength
      obtain ⟨room, rfl⟩ := Nat.exists_eq_succ_of_ne_zero (show room ≠ 0 by omega)
      have hdigits : Ends Text.isHexDigit (':' :: (behind ++ rest)) := ends_mark rfl _
      have hcolon : Ends (· != ':') (':' :: (behind ++ rest)) := ends_mark rfl _
      have hgroup' := readGroup_iff.mpr ⟨text, rfl, hgroup, hdigits⟩
      have hread := (bind_spaced first _ readGroup).trans hgroup'
      have hoctets := (bind_spaced first _ readOctets).trans (readOctets_group hgroup hcolon)
      have hbehind : readGroups room false (':' :: (behind ++ rest)) = (groups, ended, rest) :=
        ih (by omega) false
      rw [List.append_assoc, List.cons_append, readGroups_group (.inr hoctets) hread, hbehind]

theorem readGroups_side (h : SpellsSide text groups ended) (hlength : groups.length ≤ room)
    (hrest : Stops rest) : readGroups room true (text ++ rest) = (groups, ended, rest) := by
  cases h with
  | nothing => exact readGroups_stops hrest room true
  | row hrow => exact readGroups_row hrow hlength hrest true

-- Nothing but rows is read.
theorem spells_of_readGroups (h : readGroups room first text = (groups, ended, rest)) :
    groups.length ≤ room ∧ ((groups = [] ∧ ended = false ∧ text = rest) ∨
      ∃ row, SpellsRow row groups ended ∧ text = spaced first (row ++ rest)) := by
  induction room generalizing first text groups ended rest with
  | zero =>
      cases h
      exact ⟨Nat.le_refl 0, .inl ⟨rfl, rfl, rfl⟩⟩
  | succ room ih =>
      by_cases hoctets : room = 0 ∨ (separated first text).bind readOctets = none
      · cases hgroup : (separated first text).bind readGroup with
        | none =>
            rw [readGroups_none hoctets hgroup] at h
            cases h
            exact ⟨Nat.zero_le _, .inl ⟨rfl, rfl, rfl⟩⟩
        | some pair =>
            obtain ⟨group, behind⟩ := pair
            rw [readGroups_group hoctets hgroup] at h
            obtain ⟨inner, hseparated, hread⟩ := Option.bind_eq_some_iff.mp hgroup
            obtain ⟨digits, rfl, hdigits, -⟩ := readGroup_iff.mp hread
            rw [separated_iff.mp hseparated]
            cases hmore : readGroups room false behind with
            | mk groups' after =>
                obtain ⟨ended', rest'⟩ := after
                rw [hmore] at h
                cases h
                obtain ⟨hlength, hcases⟩ := ih hmore
                refine ⟨Nat.succ_le_succ hlength, .inr ?_⟩
                rcases hcases with ⟨rfl, rfl, rfl⟩ | ⟨row, hrow, rfl⟩
                · exact ⟨digits, .one hdigits, rfl⟩
                · refine ⟨digits ++ ':' :: row, .more hdigits hrow, ?_⟩
                  simp [spaced]
      · obtain ⟨hroom, hsome⟩ := not_or.mp hoctets
        obtain ⟨⟨⟨a, b, c, d⟩, behind⟩, hsome⟩ := Option.ne_none_iff_exists'.mp hsome
        rw [readGroups_octets hsome hroom] at h
        cases h
        obtain ⟨inner, hseparated, hread⟩ := Option.bind_eq_some_iff.mp hsome
        obtain ⟨rfl, -⟩ := readOctets_iff.mp hread
        have hlength : 2 ≤ room + 1 := by omega
        exact ⟨hlength, .inr ⟨octets a b c d, .octets a b c d, separated_iff.mp hseparated⟩⟩

theorem side_of_readGroups (h : readGroups room true text = (groups, ended, rest)) :
    groups.length ≤ room ∧ ∃ side, SpellsSide side groups ended ∧ text = side ++ rest := by
  obtain ⟨hlength, ⟨rfl, rfl, rfl⟩ | ⟨row, hrow, rfl⟩⟩ := spells_of_readGroups h
  · exact ⟨hlength, [], .nothing, rfl⟩
  · exact ⟨hlength, row, .row hrow, rfl⟩

-- Whole addresses

-- A row does not begin with octets unless it consists of them.
theorem readOctets_row (h : SpellsRow row groups ended)
    (hnot : groups.length ≠ 2 ∨ ended = false) (hrest : Stops rest) :
    readOctets (row ++ rest) = none := by
  cases h with
  | one hgroup => exact readOctets_group hgroup (hrest.ends (p := (· != ':')) rfl)
  | octets a b c d =>
      rcases hnot with hnot | hnot
      · exact absurd rfl hnot
      · cases hnot
  | @more _ behind _ _ _ hgroup _ =>
      have hcolon : Ends (· != ':') (':' :: (behind ++ rest)) := ends_mark rfl _
      rw [List.append_assoc]
      exact readOctets_group hgroup hcolon

theorem ofGroups_eq_some (h : groups.length = 8) : ofGroups groups = some (v6 groups h) :=
  dif_pos h

theorem readLong_long (h : SpellsRow text groups ended) (hlength : groups.length = 8) :
    readLong text = some (v6 groups hlength, []) := by
  have hread : readGroups 8 true text = (groups, ended, []) := by
    have hrow := readGroups_row h hlength.le .nothing true
    rwa [List.append_nil] at hrow
  simp only [readLong, hread, hlength, if_true, ofGroups_eq_some hlength, Option.map_some]

-- Behind fewer than eight groups two colons follow, and then the last groups.
theorem readLong_iff_of_short (hhead : readGroups 8 true text = (front, false, rest))
    (hshort : front.length ≠ 8) : readLong text = some (address, []) ↔
      ∃ tail, rest = ':' :: ':' :: tail ∧
        ∃ back ended, readGroups (7 - front.length) true tail = (back, ended, []) ∧
          ofGroups (filled front back) = some address := by
  simp only [readLong, hhead, hshort, if_false, Bool.false_eq_true, Option.bind_eq_bind,
    Option.bind_eq_some_iff, readMark_iff, Option.pure_def, Option.some.injEq, Prod.mk.injEq]
  constructor
  · rintro ⟨_, rfl, tail, rfl, _, haddress, rfl, hrest⟩
    cases htail : readGroups (7 - front.length) true tail with
    | mk back after =>
        obtain ⟨ended, rest⟩ := after
        rw [htail] at haddress hrest
        obtain rfl : rest = [] := hrest
        exact ⟨tail, rfl, back, ended, htail, haddress⟩
  · rintro ⟨tail, rfl, back, ended, htail, haddress⟩
    refine ⟨_, rfl, tail, rfl, address, ?_, rfl, ?_⟩
    · rw [htail]
      exact haddress
    · rw [htail]

theorem readLong_elided (hfront : SpellsSide head front false) (hback : SpellsSide tail back ended)
    (hroom : front.length + back.length ≤ 7) :
    readLong (head ++ ':' :: ':' :: tail) =
      some (v6 (filled front back) (length_filled hroom), []) := by
  have hhead := readGroups_side hfront (show front.length ≤ 8 by omega) (.colons tail)
  have htail := readGroups_side hback (show back.length ≤ 7 - front.length by omega) .nothing
  rw [List.append_nil] at htail
  rw [readLong_iff_of_short hhead (by omega)]
  exact ⟨tail, rfl, back, ended, htail, ofGroups_eq_some (length_filled hroom)⟩

theorem spells_of_readLong (h : readLong text = some (address, [])) : Spells text address := by
  cases hhead : readGroups 8 true text with
  | mk front after =>
      obtain ⟨ended, rest⟩ := after
      obtain ⟨hfront, head, hside, rfl⟩ := side_of_readGroups hhead
      by_cases hfull : front.length = 8
      · simp only [readLong, hhead, hfull, if_true, ofGroups_eq_some hfull, Option.map_some] at h
        cases h
        rw [List.append_nil]
        cases hside with
        | nothing => cases hfull
        | row hrow => exact .long hrow hfull
      · cases ended with
        | true =>
            simp only [readLong, hhead, hfull, if_false, if_true] at h
            cases h
        | false =>
            obtain ⟨tail, rfl, back, ended, htail, haddress⟩ :=
              (readLong_iff_of_short hhead hfull).mp h
            obtain ⟨hback, side, hside', rfl⟩ := side_of_readGroups htail
            have hroom : front.length + back.length ≤ 7 := by omega
            obtain rfl := Option.some.inj (ofGroups_eq_some (length_filled hroom) ▸ haddress)
            rw [List.append_nil]
            exact .elided hside hside' hroom

theorem Spells.readOctets_eq_none {groups : List Group} {hlength : groups.length = 8}
    (h : Spells text (v6 groups hlength)) : readOctets text = none := by
  cases h with
  | long hrow _ =>
      have hnone := readOctets_row hrow (.inl (by omega)) .nothing
      rwa [List.append_nil] at hnone
  | @elided head tail front back ended hfront _ _ =>
      cases hfront with
      | nothing => exact readOctets_of_ends (ends_mark rfl _)
      | row hrow => exact readOctets_row hrow (.inr rfl) (.colons tail)

theorem Spells.readLong_eq {groups : List Group} {hlength : groups.length = 8}
    (h : Spells text (v6 groups hlength)) : readLong text = some (v6 groups hlength, []) := by
  cases h with
  | long hrow _ => exact readLong_long hrow hlength
  | elided hfront hback hroom => exact readLong_elided hfront hback hroom

theorem read_iff_readPrefix : read text = some address ↔ readPrefix text = some (address, []) := by
  unfold read
  split
  · next other hread => simp [hread]
  · next hunread =>
      constructor
      · intro h
        cases h
      · exact fun h => absurd h (hunread address)

-- The texts that are read are the spellings of addresses.
theorem read_iff : read text = some address ↔ Spells text address := by
  rw [read_iff_readPrefix]
  constructor
  · intro h
    unfold readPrefix at h
    split at h
    · next a b c d rest hoctets =>
        cases h
        obtain ⟨rfl, -⟩ := readOctets_iff.mp hoctets
        rw [List.append_nil]
        exact .short a b c d
    · exact spells_of_readLong h
  · intro h
    unfold readPrefix
    cases address with
    | v4 a b c d =>
        cases h
        have hends : Ends Char.isDigit [] := Stops.nothing.ends rfl
        have hread : readOctets (octets a b c d) = some ((a, b, c, d), []) :=
          readOctets_iff.mpr ⟨(List.append_nil _).symm, hends⟩
        rw [hread]
    | v6 groups hlength => rw [h.readOctets_eq_none, h.readLong_eq]

theorem Spells.unique {other : Address} (h : Spells text address) (hother : Spells text other) :
    address = other :=
  Option.some.inj ((read_iff.mpr h).symm.trans (read_iff.mpr hother))

end RequestGuard.Address
