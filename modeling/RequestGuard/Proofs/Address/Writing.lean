import RequestGuard.Proofs.Address.Reading
import RequestGuard.Proofs.Limiter.Callers

namespace RequestGuard

namespace Text

theorem hexDigits_ne_nil (n : Nat) : hexDigits n ≠ [] := by
  rw [hexDigits]
  split <;> simp

theorem length_hexDigits_le {n k : Nat} (h : n < 16 ^ k) (hk : 1 ≤ k) :
    (hexDigits n).length ≤ k := by
  induction n using hexDigits.induct generalizing k with
  | case1 n hsmall =>
      rw [hexDigits, if_pos hsmall]
      exact hk
  | case2 n hlarge ih =>
      obtain ⟨j, rfl⟩ := Nat.exists_eq_add_of_le' hk
      have hj : 1 ≤ j := by
        by_contra hzero
        obtain rfl : j = 0 := by omega
        omega
      have hquotient : n / 16 < 16 ^ j := by
        rw [Nat.pow_succ] at h
        omega
      have hlength := ih hquotient hj
      rw [hexDigits, if_neg hlarge, List.length_append, List.length_singleton]
      omega

end Text

namespace Address

variable {text : List Char} {groups others : List Group} {ended : Bool}

theorem hexValue_hexDigit : ∀ n < 16, hexValue (Text.hexDigit n) = n := by decide

theorem hexWord_hexDigits (n : Nat) : hexWord (Text.hexDigits n) = n := by
  induction n using Text.hexDigits.induct with
  | case1 n hsmall =>
      have hdigit := hexValue_hexDigit n hsmall
      rw [Text.hexDigits, if_pos hsmall]
      simpa [hexWord] using hdigit
  | case2 n hlarge ih =>
      have hdigit := hexValue_hexDigit (n % 16) (Nat.mod_lt n (by omega))
      rw [hexWord] at ih
      rw [Text.hexDigits, if_neg hlarge, hexWord, List.foldl_append, ih, List.foldl_cons,
        List.foldl_nil, hdigit]
      omega

-- What is written is one of the spellings.

theorem spellsGroup_hexDigits (group : Group) : SpellsGroup (Text.hexDigits group) group where
  nonempty := Text.hexDigits_ne_nil group
  short := Text.length_hexDigits_le (by omega) (by omega)
  hex := Text.hexDigits_isHexDigit group
  value := hexWord_hexDigits group

theorem spellsRow_writeGroups (group : Group) (rest : List Group) :
    SpellsRow (writeGroups (group :: rest)) (group :: rest) false := by
  induction rest generalizing group with
  | nil =>
      rw [writeGroups, List.map_cons, List.map_nil, List.intercalate_singleton]
      exact .one (spellsGroup_hexDigits group)
  | cons next rest ih =>
      rw [writeGroups, List.map_cons, List.map_cons, List.intercalate_cons_cons, List.append_assoc]
      exact .more (spellsGroup_hexDigits group) (ih next)

theorem spellsSide_writeGroups (groups : List Group) :
    SpellsSide (writeGroups groups) groups false := by
  cases groups with
  | nil => exact .nothing
  | cons group rest => exact .row (spellsRow_writeGroups group rest)

theorem exists_zeroRun (groups : List Group) :
    ∃ behind, groups = List.replicate (zeroRun groups) 0 ++ behind := by
  have hzeros : groups.takeWhile (· == 0) = List.replicate (zeroRun groups) 0 := by
    rw [List.eq_replicate_iff]
    refine ⟨rfl, fun group hgroup => ?_⟩
    have hzero : (group == 0) = true := List.mem_takeWhile_imp (p := (· == 0)) hgroup
    exact beq_iff_eq.mp hzero
  refine ⟨groups.dropWhile (· == 0), ?_⟩
  rw [← hzeros, List.takeWhile_append_dropWhile]

-- The run that is left out consists of zeros.
theorem exists_longestRun {start : Nat} (h : 0 < (longestRun start groups).2) :
    ∃ before behind, (longestRun start groups).1 = start + before.length ∧
      groups = before ++ (List.replicate (longestRun start groups).2 0 ++ behind) := by
  induction groups generalizing start with
  | nil => exact absurd h (Nat.lt_irrefl 0)
  | cons group rest ih =>
      simp only [longestRun] at h ⊢
      split at h
      · next hhere =>
          rw [if_pos hhere]
          obtain ⟨behind, hgroups⟩ := exists_zeroRun (group :: rest)
          exact ⟨[], behind, rfl, hgroups⟩
      · next hlater =>
          rw [if_neg hlater]
          obtain ⟨before, behind, hstart, hrest⟩ := ih h
          refine ⟨group :: before, behind, ?_, ?_⟩
          · rw [hstart, List.length_cons]
            omega
          · rw [List.cons_append, ← hrest]

theorem around_longestRun (h : 0 < (longestRun 0 groups).2) :
    groups.take (longestRun 0 groups).1 ++ (List.replicate (longestRun 0 groups).2 0 ++
      groups.drop ((longestRun 0 groups).1 + (longestRun 0 groups).2)) = groups := by
  obtain ⟨before, behind, hstart, hgroups⟩ := exists_longestRun h
  generalize (longestRun 0 groups).1 = start, (longestRun 0 groups).2 = n at hstart hgroups ⊢
  obtain rfl : start = before.length := by omega
  have hend : (before ++ List.replicate n (0 : Group)).length = before.length + n := by
    rw [List.length_append, List.length_replicate]
  have hdrop : groups.drop (before.length + n) = behind := by
    rw [hgroups, ← List.append_assoc]
    exact List.drop_left' hend
  rw [hdrop, hgroups, List.take_left]

theorem Spells.of_eq {hlength : groups.length = 8} (h : Spells text (v6 groups hlength))
    (heq : groups = others) (hothers : others.length = 8) : Spells text (v6 others hothers) := by
  subst heq
  exact h

theorem pair_div_mod (group : Group) (hhigh : group / 256 < 256) (hlow : group % 256 < 256) :
    pair ⟨group / 256, hhigh⟩ ⟨group % 256, hlow⟩ = group := by
  apply Fin.ext
  show group.val / 256 * 256 + group.val % 256 = group.val
  omega

theorem spells_mapped (high low : Group) :
    Spells (writeLong [0, 0, 0, 0, 0, 65535, high, low])
      (v6 [0, 0, 0, 0, 0, 65535, high, low] rfl) := by
  have hhex : ∀ c ∈ "ffff".toList, Text.isHexDigit c = true :=
    List.all_eq_true.mp (by decide)
  have hgroup : SpellsGroup "ffff".toList (65535 : Group) :=
    ⟨by decide, by decide, hhex, by decide⟩
  have hback := SpellsSide.row (.more hgroup (.octets ⟨high / 256, by omega⟩
    ⟨high % 256, by omega⟩ ⟨low / 256, by omega⟩ ⟨low % 256, by omega⟩))
  rw [pair_div_mod, pair_div_mod] at hback
  have hroom : 0 + 3 ≤ 7 := by decide
  exact (Spells.elided .nothing hback hroom).of_eq rfl rfl

theorem spells_compressed {before behind : List Group} {n : Nat} (hn : 1 < n)
    (hlength : (before ++ (List.replicate n 0 ++ behind)).length = 8) :
    Spells (writeGroups before ++ ':' :: ':' :: writeGroups behind)
      (v6 (before ++ (List.replicate n 0 ++ behind)) hlength) := by
  have hsum : before.length + (n + behind.length) = 8 := by
    simpa only [List.length_append, List.length_replicate] using hlength
  have hzeros : 8 - before.length - behind.length = n := by omega
  have hspells := Spells.elided (spellsSide_writeGroups before) (spellsSide_writeGroups behind)
    (by omega)
  apply hspells.of_eq
  rw [filled, hzeros, List.append_assoc]
  rfl

theorem spells_writeLong (hlength : groups.length = 8) :
    Spells (writeLong groups) (v6 groups hlength) := by
  fun_cases writeLong groups with
  | case1 _ high low => exact spells_mapped high low
  | case2 _ start n hrun hlong =>
      have hlong : 1 < (longestRun 0 groups).2 := by rwa [hrun]
      have hgroups := around_longestRun (Nat.zero_lt_of_lt hlong)
      rw [if_pos hlong]
      exact (spells_compressed hlong ((congrArg List.length hgroups).trans hlength)).of_eq hgroups
        hlength
  | case3 _ start n hrun hshort =>
      rw [if_neg (by rwa [hrun])]
      obtain ⟨group, rest, rfl⟩ := List.exists_cons_of_length_eq_add_one hlength
      exact .long (spellsRow_writeGroups group rest) hlength

theorem spells_write : ∀ address : Address, Spells address.write address
  | v4 a b c d => .short a b c d
  | v6 _ hlength => spells_writeLong hlength

theorem ofText_text (address : Address) : ofText address.text = some address := by
  rw [ofText, text, String.toList_ofList]
  exact read_iff.mpr (spells_write address)

theorem text_inj {address other : Address} (h : address.text = other.text) : address = other := by
  have hwritten : address.write = other.write := String.ofList_injective h
  exact (spells_write address).unique (hwritten ▸ spells_write other)

end Address

end RequestGuard
