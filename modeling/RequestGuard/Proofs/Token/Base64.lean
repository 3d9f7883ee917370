import RequestGuard.Proofs.Text.Utf8
import RequestGuard.Token.Base64

namespace RequestGuard.Base64

-- The numbers of the letters that some bytes make.
def sextets : Bytes → List Nat
  | [] => []
  | [a] => [a.toNat / 4, a.toNat % 4 * 16]
  | [a, b] => [a.toNat / 4, a.toNat % 4 * 16 + b.toNat / 16, b.toNat % 16 * 4]
  | a :: b :: c :: rest =>
    (a.toNat / 4) :: (a.toNat % 4 * 16 + b.toNat / 16) :: (b.toNat % 16 * 4 + c.toNat / 64) ::
      (c.toNat % 64) :: sextets rest

def letterByte (n : Nat) : UInt8 :=
  UInt8.ofNat (letter n).toNat

theorem encode_eq_map (bytes : Bytes) : encode bytes = (sextets bytes).map letter := by
  fun_induction sextets bytes with
  | case1 => rfl
  | case2 a => rfl
  | case3 a b => rfl
  | case4 a b c rest ih => rw [encode, ih]; rfl

theorem lt_of_mem_sextets {bytes : Bytes} : ∀ n ∈ sextets bytes, n < 64 := by
  have hbyte (b : UInt8) : b.toNat < 256 := b.toNat_lt
  fun_induction sextets bytes with
  | case1 => exact List.forall_mem_nil _
  | case2 a =>
      have ha := hbyte a
      simp only [List.forall_mem_cons, List.not_mem_nil, false_implies, implies_true, and_true]
      omega
  | case3 a b =>
      have ha := hbyte a
      have hb := hbyte b
      simp only [List.forall_mem_cons, List.not_mem_nil, false_implies, implies_true, and_true]
      omega
  | case4 a b c rest ih =>
      have ha := hbyte a
      have hb := hbyte b
      have hc := hbyte c
      simp only [List.forall_mem_cons]
      refine ⟨by omega, by omega, by omega, by omega, ih⟩

-- Letter by letter

theorem letter_spec : ∀ n < 64, (letter n).toNat < 0x80 ∧ value (letterByte n) = some n ∧
    isPad (letterByte n) = false := by
  decide

theorem bytesOf_encode (bytes : Bytes) :
    bytesOf (String.ofList (encode bytes)) = (sextets bytes).map letterByte := by
  rw [Utf8.bytesOf_ofList, encode_eq_map, Utf8.encode_ascii, List.map_map]
  · rfl
  · intro c hc
    obtain ⟨n, hn, rfl⟩ := List.mem_map.mp hc
    exact (letter_spec n (lt_of_mem_sextets n hn)).1

theorem readLetters_map {letters : List Nat} (h : ∀ n ∈ letters, n < 64) (offset : Nat) :
    readLetters offset (letters.map letterByte) = .ok letters := by
  induction letters generalizing offset with
  | nil => rfl
  | cons n rest ih =>
      obtain ⟨hn, hrest⟩ := List.forall_mem_cons.mp h
      obtain ⟨-, hvalue, -⟩ := letter_spec n hn
      rw [List.map_cons, readLetters, hvalue]
      simp only [ih hrest, Except.map]

theorem readLast_map {letters : List Nat} (h : ∀ n ∈ letters, n < 64) (start index : Nat) :
    readLast start index none (letters.map letterByte) = .ok (letters, false) := by
  induction letters generalizing index with
  | nil => rfl
  | cons n rest ih =>
      obtain ⟨hn, hrest⟩ := List.forall_mem_cons.mp h
      obtain ⟨-, hvalue, hpad⟩ := letter_spec n hn
      unfold readLast
      simp only [List.map_cons, hpad, hvalue, ih hrest, Except.map, Bool.false_eq_true, if_false]

-- Group by group

theorem groups_sextets (bytes : Bytes) : groups (sextets bytes) = bytes := by
  have hbyte (b : UInt8) (n : Nat) (h : n = b.toNat) : UInt8.ofNat n = b := by
    rw [h, UInt8.ofNat_toNat]
  fun_induction sextets bytes with
  | case1 => rfl
  | case2 a =>
      have ha := a.toNat_lt
      rw [groups, hbyte a _ (by omega)]
  | case3 a b =>
      have ha := a.toNat_lt
      have hb := b.toNat_lt
      rw [groups, hbyte a _ (by omega), hbyte b _ (by omega)]
  | case4 a b c rest ih =>
      have ha := a.toNat_lt
      have hb := b.toNat_lt
      have hc := c.toNat_lt
      rw [groups, hbyte a _ (by omega), hbyte b _ (by omega), hbyte c _ (by omega), ih]

theorem length_sextets (bytes : Bytes) :
    (sextets bytes).length % 4 ≠ 1 ∧ (sextets bytes = [] ↔ bytes = []) := by
  fun_induction sextets bytes with
  | case1 => simp
  | case2 a => simp
  | case3 a b => simp
  | case4 a b c rest ih =>
      simp only [List.length_cons, reduceCtorEq, iff_self, and_true]
      omega

-- Only the last letter of a short group has bits to spare, and these are not set.
theorem spare_sextets (bytes : Bytes) :
    spare ((sextets bytes).drop
      ((sextets bytes).length - lastGroupLength (sextets bytes).length)) = 0 := by
  fun_induction sextets bytes with
  | case1 => rfl
  | case2 a =>
      show a.toNat % 4 * 16 % 16 = 0
      omega
  | case3 a b =>
      show b.toNat % 16 * 4 % 4 = 0
      omega
  | case4 a b c rest ih =>
      by_cases hrest : rest = []
      · subst hrest
        simp [sextets, lastGroupLength, spare]
      · have hpos : 0 < (sextets rest).length :=
          List.length_pos_iff.mpr (mt (length_sextets rest).2.mp hrest)
        have hstart : (sextets rest).length + 4 - lastGroupLength ((sextets rest).length + 4) =
            ((sextets rest).length - lastGroupLength (sextets rest).length) + 4 := by
          unfold lastGroupLength
          split_ifs <;> omega
        simp only [List.length_cons, Nat.add_assoc, Nat.reduceAdd, hstart, List.drop_succ_cons]
        exact ih

-- What is encoded is decoded.
theorem decode_encode (bytes : Bytes) :
    decode (bytesOf (String.ofList (encode bytes))) = .ok bytes := by
  obtain ⟨hlength, -⟩ := length_sextets bytes
  have hsmall : ∀ n ∈ sextets bytes, n < 64 := lt_of_mem_sextets
  have hspare := spare_sextets bytes
  have hgroups := groups_sextets bytes
  rw [bytesOf_encode]
  generalize sextets bytes = letters at *
  have hlast : letters ≠ [] →
      ¬(letters.drop (letters.length - lastGroupLength letters.length)).length < 2 := by
    intro hne
    have hpos := List.length_pos_iff.mpr hne
    rw [List.length_drop]
    unfold lastGroupLength
    split_ifs <;> omega
  have hodd : decide (letters.length % 4 = 1) = false := decide_eq_false hlength
  have hshort : (decide (letters.map letterByte ≠ []) && decide
      ((letters.drop (letters.length - lastGroupLength letters.length)).length < 2)) = false := by
    simpa using hlast
  have htake (start : Nat) : ∀ n ∈ letters.take start, n < 64 := fun n hn =>
    hsmall n (List.mem_of_mem_take hn)
  have hdrop (start : Nat) : ∀ n ∈ letters.drop start, n < 64 := fun n hn =>
    hsmall n (List.mem_of_mem_drop hn)
  simp only [decode, List.length_map, ← List.map_take, ← List.map_drop, readLetters_map (htake _),
    readLast_map (hdrop _), bind, Except.bind, hodd, hshort, hspare, hgroups, Bool.false_and,
    Bool.false_eq_true, if_false, ne_eq, not_true, List.take_append_drop]
  split <;> rfl

end RequestGuard.Base64
