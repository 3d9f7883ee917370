import RequestGuard.Proofs.Form
import RequestGuard.Proofs.Markup.Growth

namespace RequestGuard.Form

open Markup (weight marks)

-- The bytes that a character takes in a form.
def escapedSize (c : Char) : Nat :=
  ((String.utf8EncodeChar c).flatMap escapeByte).length

theorem length_escapeByte_le (b : UInt8) : (escapeByte b).length ≤ 3 := by
  unfold escapeByte
  split_ifs
  all_goals simp

theorem length_flatMap_escapeByte_le (bytes : Bytes) :
    (bytes.flatMap escapeByte).length ≤ 3 * bytes.length := by
  induction bytes with
  | nil => exact Nat.le_refl 0
  | cons b rest ih =>
      have hb := length_escapeByte_le b
      rw [List.flatMap_cons, List.length_append, List.length_cons]
      omega

theorem escapedSize_le (c : Char) : escapedSize c ≤ 12 := by
  have hescaped := length_flatMap_escapeByte_le (String.utf8EncodeChar c)
  have hbytes := c.utf8Size_le_four
  rw [String.length_utf8EncodeChar] at hescaped
  unfold escapedSize
  omega

theorem length_escape (s : String) : (escape s).length = weight escapedSize s.toList := by
  unfold escape bytesOf
  induction s.toList with
  | nil => rfl
  | cons c rest ih =>
      rw [List.flatMap_cons, List.flatMap_append, List.length_append, ih, Markup.weight_cons]
      rfl

theorem length_escape_le (s : String) : (escape s).length ≤ 12 * s.length := by
  have hweight : weight escapedSize s.toList ≤ 12 * weight (fun _ => 1) s.toList :=
    Markup.weight_le_mul (fun c => escapedSize_le c) s.toList
  rwa [Markup.weight_one, String.length_toList, ← length_escape] at hweight

-- No entity takes more in a form than any character may.
theorem escapedSize_entity_le : ∀ mark ∈ marks, weight escapedSize mark.1 ≤ 12 := by
  decide

theorem length_escape_cleaned_le (escaping : Bool) (s : String) :
    (escape (cleaned escaping s)).length ≤ 12 * s.length := by
  have hweight : weight escapedSize (cleaned escaping s).toList ≤
      12 * weight (fun _ => 1) s.toList :=
    Markup.weight_cleaned_le (fun c => escapedSize_le c) (fun _ => escapedSize_entity_le) s
  rwa [Markup.weight_one, String.length_toList, ← length_escape] at hweight

-- What is read has no more characters than there were bytes.

theorem length_unescape_le (bytes : Bytes) : (unescape bytes).length ≤ bytes.length := by
  fun_induction unescape bytes with
  | case1 => exact Nat.le_refl 0
  | _ =>
    simp only [List.length_cons] at *
    omega

theorem length_pieces_le (bytes : Bytes) : (Utf8.pieces bytes).length ≤ bytes.length := by
  fun_induction Utf8.pieces bytes with
  | case1 => exact Nat.le_refl 0
  | case2 a rest ih =>
      have hstep := Utf8.step_length_pos a rest
      rw [List.length_drop] at ih
      simp only [List.length_cons] at ih ⊢
      omega

theorem length_readName_le (bytes : Bytes) : (readName bytes).length ≤ bytes.length := by
  rw [readName, Utf8.decodeLossy, ← String.length_toList, String.toList_ofList, List.length_map]
  exact (length_pieces_le _).trans (length_unescape_le bytes)

theorem length_readPair_le (piece : Bytes) :
    (readPair piece).1.length + (readPair piece).2.length ≤ piece.length := by
  have hname := length_readName_le (piece.takeWhile (· != 0x3D))
  have hvalue := length_readName_le ((piece.dropWhile (· != 0x3D)).drop 1)
  have hsplit : (piece.takeWhile (· != 0x3D)).length + (piece.dropWhile (· != 0x3D)).length =
      piece.length := by
    rw [← List.length_append, List.takeWhile_append_dropWhile]
  rw [List.length_drop] at hvalue
  simp only [readPair]
  omega

theorem sum_splitAt (separator : UInt8) (text : Bytes) :
    ((splitAt separator text).map fun piece => piece.length + 1).sum = text.length + 1 := by
  induction text with
  | nil => rfl
  | cons b rest ih =>
      rw [splitAt]
      split
      · rw [List.map_cons, List.sum_cons, ih, List.length_cons, List.length_nil]
        omega
      · cases hpieces : splitAt separator rest with
        | nil =>
            rw [hpieces, List.map_nil, List.sum_nil] at ih
            omega
        | cons piece pieces =>
            rw [hpieces] at ih
            simp only [List.map_cons, List.sum_cons, List.length_cons] at ih ⊢
            omega

theorem sum_read_le (text : Bytes) :
    ((read text).map fun pair => pair.1.length + pair.2.length + 1).sum ≤ text.length + 1 := by
  rw [← sum_splitAt 0x26 text, read, List.map_map]
  induction splitAt 0x26 text with
  | nil => exact Nat.le_refl 0
  | cons piece pieces ih =>
      have hpiece := length_readPair_le piece
      rw [List.map_cons, List.sum_cons, List.filter_cons]
      split
      · rw [List.map_cons, List.sum_cons, Function.comp_apply]
        omega
      · omega

theorem length_write (pairs : List (String × String)) :
    (write pairs).length = (pairs.map fun pair => (writePair pair).length + 1).sum - 1 := by
  rw [write]
  induction pairs with
  | nil => rfl
  | cons first rest ih =>
      cases rest with
      | nil => simp [List.intercalate]
      | cons next rest =>
          have hjoined : [0x26].intercalate ((first :: next :: rest).map writePair) =
              writePair first ++ 0x26 :: [0x26].intercalate ((next :: rest).map writePair) := by
            simp [List.intercalate]
          rw [hjoined, List.length_append, List.length_cons, ih]
          simp only [List.map_cons, List.sum_cons]
          omega

-- The separators of the names and values are not escaped, so there is room for one of them that
-- was not there before.
theorem length_write_le {pairs : List (String × String)} {length : Nat}
    (h : (pairs.map fun pair => (writePair pair).length + 11).sum ≤ 12 * (length + 1)) :
    (write pairs).length ≤ 12 * length + 1 := by
  have hsum : (pairs.map fun pair => (writePair pair).length + 11).sum =
      (pairs.map fun pair => (writePair pair).length + 1).sum + 10 * pairs.length := by
    clear h
    induction pairs with
    | nil => rfl
    | cons first rest ih =>
        simp only [List.map_cons, List.sum_cons, List.length_cons] at ih ⊢
        omega
  rw [length_write]
  cases pairs with
  | nil => exact Nat.zero_le _
  | cons first rest =>
      rw [List.length_cons] at hsum
      omega

end RequestGuard.Form
