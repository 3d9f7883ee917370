import RequestGuard.Form
import RequestGuard.Proofs.Text.Utf8

namespace RequestGuard.Form

-- The bytes that a name or a value is written with.
def isWritten (b : UInt8) : Bool :=
  isPlain b || b == 0x2B || b == 0x25

theorem upperHex_of_lt :
    ∀ n < 16, nibble (upperHex n) = some n ∧ isPlain (upperHex n) = true := by
  decide

theorem unescape_plus (rest : Bytes) : unescape (0x2B :: rest) = 0x20 :: unescape rest := by
  rw [unescape]

theorem unescape_percent {h l : UInt8} {a b : Nat} (ha : nibble h = some a)
    (hb : nibble l = some b) (rest : Bytes) :
    unescape (0x25 :: h :: l :: rest) = UInt8.ofNat (a * 16 + b) :: unescape rest := by
  rw [unescape]
  simp only [ha, hb]

theorem unescape_plain {b : UInt8} (h : isPlain b = true) (rest : Bytes) :
    unescape (b :: rest) = b :: unescape rest := by
  rw [unescape]
  · intro hplus
    subst hplus
    exact absurd h (by decide)
  · intro _ _ _ hpercent
    subst hpercent
    exact absurd h (by decide)

theorem unescape_escapeByte (b : UInt8) (rest : Bytes) :
    unescape (escapeByte b ++ rest) = b :: unescape rest := by
  unfold escapeByte
  by_cases hplain : isPlain b = true
  · rw [if_pos hplain, List.singleton_append, unescape_plain hplain]
  rw [if_neg hplain]
  by_cases hspace : (b == 0x20) = true
  · rw [if_pos hspace, List.singleton_append, unescape_plus, beq_iff_eq.mp hspace]
  · have hhigh := (upperHex_of_lt (b.toNat / 16) (by have := b.toNat_lt; omega)).1
    have hlow := (upperHex_of_lt (b.toNat % 16) (by omega)).1
    rw [if_neg hspace]
    show unescape (0x25 :: _ :: _ :: rest) = _
    rw [unescape_percent hhigh hlow, Nat.mul_comm, Nat.div_add_mod, UInt8.ofNat_toNat]

theorem unescape_escape (s : String) : unescape (escape s) = bytesOf s := by
  unfold escape
  induction bytesOf s with
  | nil => rw [List.flatMap_nil, unescape]
  | cons b rest ih => rw [List.flatMap_cons, unescape_escapeByte, ih]

theorem readName_escape (s : String) : readName (escape s) = s := by
  rw [readName, unescape_escape, Utf8.decodeLossy_bytesOf]

-- No separator stands in what is written.

theorem isWritten_escapeByte (b : UInt8) : ∀ w ∈ escapeByte b, isWritten w = true := by
  have hplain : ∀ w, isPlain w = true → isWritten w = true := fun w h => by simp [isWritten, h]
  unfold escapeByte
  split_ifs with h₁ h₂
  · exact List.forall_mem_singleton.mpr (hplain b h₁)
  · exact List.forall_mem_singleton.mpr rfl
  · have hhigh := (upperHex_of_lt (b.toNat / 16) (by have := b.toNat_lt; omega)).2
    have hlow := (upperHex_of_lt (b.toNat % 16) (by omega)).2
    exact List.forall_mem_cons.mpr ⟨rfl, List.forall_mem_cons.mpr ⟨hplain _ hhigh,
      List.forall_mem_singleton.mpr (hplain _ hlow)⟩⟩

theorem isWritten_escape (s : String) : ∀ w ∈ escape s, isWritten w = true := by
  intro w hw
  obtain ⟨b, -, hb⟩ := List.mem_flatMap.mp hw
  exact isWritten_escapeByte b w hb

theorem ne_of_isWritten {w separator : UInt8} (hw : isWritten w = true)
    (hseparator : isWritten separator = false) : w ≠ separator := by
  rintro rfl
  exact absurd (hw.symm.trans hseparator) (by decide)

theorem readPair_writePair (pair : String × String) : readPair (writePair pair) = pair := by
  have hname : ∀ w ∈ escape pair.1, (w != 0x3D) = true := fun w hw =>
    bne_iff_ne.mpr (ne_of_isWritten (isWritten_escape _ w hw) (by decide))
  have htake : (writePair pair).takeWhile (· != 0x3D) = escape pair.1 := by
    rw [writePair, List.takeWhile_append_of_pos hname]
    simp
  have hdrop : (writePair pair).dropWhile (· != 0x3D) = 0x3D :: escape pair.2 := by
    rw [writePair, List.dropWhile_append_of_pos hname]
    simp
  rw [readPair, htake, hdrop, List.drop_one, List.tail_cons, readName_escape, readName_escape]

theorem ampersand_not_mem_writePair (pair : String × String) : 0x26 ∉ writePair pair := by
  have hnot : ∀ s, (0x26 : UInt8) ∉ escape s := fun s h =>
    ne_of_isWritten (isWritten_escape s _ h) (by decide) rfl
  simp [writePair, hnot]

section Splitting

variable {separator : UInt8}

theorem splitAt_of_not_mem {piece : Bytes} (h : separator ∉ piece) :
    splitAt separator piece = [piece] := by
  induction piece with
  | nil => rfl
  | cons b rest ih =>
      rw [List.mem_cons, not_or] at h
      rw [splitAt, if_neg (by simpa using Ne.symm h.1), ih h.2]

theorem splitAt_append {piece : Bytes} (h : separator ∉ piece) (rest : Bytes) :
    splitAt separator (piece ++ separator :: rest) = piece :: splitAt separator rest := by
  induction piece with
  | nil => rw [List.nil_append, splitAt, if_pos (beq_self_eq_true separator)]
  | cons b more ih =>
      rw [List.mem_cons, not_or] at h
      rw [List.cons_append, splitAt, if_neg (by simpa using Ne.symm h.1), ih h.2]

theorem splitAt_intercalate {first : Bytes} {more : List Bytes}
    (h : ∀ piece ∈ first :: more, separator ∉ piece) :
    splitAt separator ([separator].intercalate (first :: more)) = first :: more := by
  induction more generalizing first with
  | nil =>
      have hfirst := h first List.mem_cons_self
      simpa [List.intercalate] using splitAt_of_not_mem hfirst
  | cons next rest ih =>
      obtain ⟨hfirst, hmore⟩ := List.forall_mem_cons.mp h
      have hjoined : [separator].intercalate (first :: next :: rest) =
          first ++ separator :: [separator].intercalate (next :: rest) := by
        simp [List.intercalate]
      rw [hjoined, splitAt_append hfirst, ih hmore]

end Splitting

-- Pairs that are written are read back, all of them and in their order.
theorem read_write (pairs : List (String × String)) : read (write pairs) = pairs := by
  cases pairs with
  | nil => rfl
  | cons first rest =>
      have hpieces : ∀ piece ∈ (first :: rest).map writePair, 0x26 ∉ piece := by
        intro piece hpiece
        obtain ⟨pair, -, rfl⟩ := List.mem_map.mp hpiece
        exact ampersand_not_mem_writePair pair
      have hkept : ((first :: rest).map writePair).filter (!·.isEmpty) =
          (first :: rest).map writePair := by
        refine List.filter_eq_self.mpr fun piece hpiece => ?_
        obtain ⟨pair, -, rfl⟩ := List.mem_map.mp hpiece
        simp [writePair]
      have hback : ((first :: rest).map writePair).map readPair = first :: rest := by
        rw [List.map_map]
        exact (List.map_congr_left fun pair _ => readPair_writePair pair).trans (List.map_id _)
      rw [List.map_cons] at hpieces
      rw [read, write, List.map_cons, splitAt_intercalate hpieces, ← List.map_cons, hkept, hback]

end RequestGuard.Form
