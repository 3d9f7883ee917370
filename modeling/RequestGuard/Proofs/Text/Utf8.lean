import RequestGuard.Text.Utf8
import Mathlib.Logic.Basic
import Mathlib.Tactic.SplitIfs

namespace RequestGuard.Utf8

section Step

variable {a b c d : UInt8} {rest : Bytes}

theorem isTail_iff : isTail b = true ↔ 0x80 ≤ b.toNat ∧ b.toNat ≤ 0xBF := by
  simp [isTail, UInt8.le_iff_toNat_le]

theorem isSecond_iff : isSecond a b = true ↔ (0x80 ≤ b.toNat ∧ b.toNat ≤ 0xBF) ∧
    (a.toNat = 0xE0 → 0xA0 ≤ b.toNat) ∧ (a.toNat = 0xED → b.toNat ≤ 0x9F) ∧
    (a.toNat = 0xF0 → 0x90 ≤ b.toNat) ∧ (a.toNat = 0xF4 → b.toNat ≤ 0x8F) := by
  simp [isSecond, isTail_iff, UInt8.le_iff_toNat_le, ← UInt8.toNat_inj, imp_iff_not_or, and_assoc]

theorem step_one (ha : a.toNat < 0x80) : step (a :: rest) = (some (Char.ofNat a.toNat), 1) := by
  have hlow : a < 0x80 := UInt8.lt_iff_toNat_lt.mpr ha
  simp [step, hlow]

theorem step_two (hlead : 0xC2 ≤ a.toNat ∧ a.toNat ≤ 0xDF) (hsecond : isSecond a b = true) :
    step (a :: b :: rest) = (some (Char.ofNat (a.toNat % 32 * 64 + low b)), 2) := by
  have hlow : ¬a < 0x80 := by rw [UInt8.lt_iff_toNat_lt]; simp; omega
  have hrange : (0xC2 ≤ a && a ≤ 0xDF) = true := by simpa [UInt8.le_iff_toNat_le] using hlead
  simp only [step, if_neg hlow, if_pos hrange, if_pos hsecond]

theorem step_three (hlead : 0xE0 ≤ a.toNat ∧ a.toNat ≤ 0xEF) (hsecond : isSecond a b = true)
    (hthird : isTail c = true) :
    step (a :: b :: c :: rest) =
      (some (Char.ofNat (a.toNat % 16 * 4096 + low b * 64 + low c)), 3) := by
  have hlow : ¬a < 0x80 := by rw [UInt8.lt_iff_toNat_lt]; simp; omega
  have htwo : ¬(0xC2 ≤ a && a ≤ 0xDF) = true := by simp [UInt8.le_iff_toNat_le]; omega
  have hrange : (0xE0 ≤ a && a ≤ 0xEF) = true := by simpa [UInt8.le_iff_toNat_le] using hlead
  simp only [step, if_neg hlow, if_neg htwo, if_pos hrange, hsecond, hthird, Bool.not_true,
    Bool.false_eq_true, if_false, if_true]

theorem step_four (hlead : 0xF0 ≤ a.toNat ∧ a.toNat ≤ 0xF4) (hsecond : isSecond a b = true)
    (hthird : isTail c = true) (hfourth : isTail d = true) :
    step (a :: b :: c :: d :: rest) =
      (some (Char.ofNat (a.toNat % 8 * 262144 + low b * 4096 + low c * 64 + low d)), 4) := by
  have hlow : ¬a < 0x80 := by rw [UInt8.lt_iff_toNat_lt]; simp; omega
  have htwo : ¬(0xC2 ≤ a && a ≤ 0xDF) = true := by simp [UInt8.le_iff_toNat_le]; omega
  have hthree : ¬(0xE0 ≤ a && a ≤ 0xEF) = true := by simp [UInt8.le_iff_toNat_le]; omega
  have hrange : (0xF0 ≤ a && a ≤ 0xF4) = true := by simpa [UInt8.le_iff_toNat_le] using hlead
  simp only [step, if_neg hlow, if_neg htwo, if_neg hthree, if_pos hrange, hsecond, hthird,
    hfourth, Bool.not_true, Bool.false_eq_true, if_false, if_true]

end Step

theorem toNat_byte {n : Nat} (h : n < 256) : (UInt8.ofNat n).toNat = n := by
  simp [Nat.mod_eq_of_lt h]

-- The lead and the tails hold the bits of the code point, so no form is overlong, a surrogate or
-- too large.
theorem step_encode (c : Char) (rest : Bytes) :
    step (String.utf8EncodeChar c ++ rest) = (some c, (String.utf8EncodeChar c).length) := by
  have hvalid : c.toNat < 0xD800 ∨ 0xDFFF < c.toNat ∧ c.toNat < 0x110000 := c.valid
  have hchar : ∀ n, n = c.toNat → Char.ofNat n = c := fun n hn => hn ▸ Char.ofNat_toNat c
  have hval : c.val.toNat = c.toNat := rfl
  have htail : ∀ n, isTail (UInt8.ofNat (n % 64 + 128)) = true := by
    intro n
    rw [isTail_iff, toNat_byte (by omega)]
    omega
  have hlow : ∀ n, low (UInt8.ofNat (n % 64 + 128)) = n % 64 := by
    intro n
    rw [low, toNat_byte (by omega)]
    omega
  simp only [String.utf8EncodeChar, hval]
  split_ifs with hone htwo hthree
  · rw [List.singleton_append, step_one (by rw [toNat_byte (by omega)]; omega),
      hchar _ (toNat_byte (by omega))]
    rfl
  · rw [List.cons_append, List.singleton_append, step_two]
    · rw [hlow, toNat_byte (by omega), hchar _ (by omega)]
      rfl
    · rw [toNat_byte (by omega)]
      omega
    · rw [isSecond_iff, toNat_byte (by omega), toNat_byte (by omega)]
      omega
  · rw [List.cons_append, List.cons_append, List.singleton_append, step_three]
    · rw [hlow, hlow, toNat_byte (by omega), hchar _ (by omega)]
      rfl
    · rw [toNat_byte (by omega)]
      omega
    · rw [isSecond_iff, toNat_byte (by omega), toNat_byte (by omega)]
      omega
    · exact htail _
  · rw [List.cons_append, List.cons_append, List.cons_append, List.singleton_append, step_four]
    · rw [hlow, hlow, hlow, toNat_byte (by omega), hchar _ (by omega)]
      rfl
    · rw [toNat_byte (by omega)]
      omega
    · rw [isSecond_iff, toNat_byte (by omega), toNat_byte (by omega)]
      omega
    · exact htail _
    · exact htail _

theorem pieces_encode (c : Char) (rest : Bytes) :
    pieces (String.utf8EncodeChar c ++ rest) = some c :: pieces rest := by
  have hstep := step_encode c rest
  cases hbytes : String.utf8EncodeChar c ++ rest with
  | nil => simp [hbytes, step] at hstep
  | cons a more =>
      rw [hbytes] at hstep
      rw [pieces, hstep, ← hbytes, List.drop_left]

theorem pieces_bytesOf (s : String) : pieces (bytesOf s) = s.toList.map some := by
  unfold bytesOf
  induction s.toList with
  | nil => rw [List.flatMap_nil, pieces, List.map_nil]
  | cons c rest ih => rw [List.flatMap_cons, pieces_encode, ih, List.map_cons]

def encode (text : List Char) : Bytes :=
  text.flatMap String.utf8EncodeChar

theorem bytesOf_ofList (text : List Char) : bytesOf (String.ofList text) = encode text := by
  rw [bytesOf, String.toList_ofList, encode]

@[simp] theorem encode_nil : encode [] = [] := rfl

@[simp] theorem encode_append (text more : List Char) :
    encode (text ++ more) = encode text ++ encode more :=
  List.flatMap_append

theorem encode_cons (c : Char) (rest : List Char) :
    encode (c :: rest) = String.utf8EncodeChar c ++ encode rest :=
  List.flatMap_cons

theorem encodeChar_ascii {c : Char} (h : c.toNat < 0x80) :
    String.utf8EncodeChar c = [UInt8.ofNat c.toNat] := by
  have hval : c.val.toNat = c.toNat := rfl
  simp only [String.utf8EncodeChar, hval]
  rw [if_pos (by omega)]

theorem encode_ascii {text : List Char} (h : ∀ c ∈ text, c.toNat < 0x80) :
    encode text = text.map fun c => UInt8.ofNat c.toNat := by
  induction text with
  | nil => rfl
  | cons c rest ih =>
      obtain ⟨hc, hrest⟩ := List.forall_mem_cons.mp h
      rw [encode_cons, encodeChar_ascii hc, ih hrest, List.map_cons, List.singleton_append]

-- Only the bytes of longer forms lie beyond ASCII.
theorem le_of_mem_encodeChar {c : Char} (h : 0x80 ≤ c.toNat) :
    ∀ b ∈ String.utf8EncodeChar c, 0x80 ≤ b.toNat := by
  have hval : c.val.toNat = c.toNat := rfl
  have hlarge : ¬c.toNat ≤ 127 := by omega
  have hbyte : ∀ n, 0x80 ≤ n → n < 256 → 0x80 ≤ (UInt8.ofNat n).toNat := fun n hn hbound => by
    rw [toNat_byte hbound]
    exact hn
  simp only [String.utf8EncodeChar, hval, if_neg hlarge]
  split_ifs with htwo hthree
  · simp only [List.mem_cons, List.not_mem_nil, or_false, forall_eq_or_imp, forall_eq]
    exact ⟨hbyte _ (by omega) (by omega), hbyte _ (by omega) (by omega)⟩
  · simp only [List.mem_cons, List.not_mem_nil, or_false, forall_eq_or_imp, forall_eq]
    exact ⟨hbyte _ (by omega) (by omega), hbyte _ (by omega) (by omega),
      hbyte _ (by omega) (by omega)⟩
  · simp only [List.mem_cons, List.not_mem_nil, or_false, forall_eq_or_imp, forall_eq]
    exact ⟨hbyte _ (by omega) (by omega), hbyte _ (by omega) (by omega),
      hbyte _ (by omega) (by omega), hbyte _ (by omega) (by omega)⟩

-- What is written as UTF-8 is read back, strictly or not.

theorem decode_bytesOf (s : String) : decode (bytesOf s) = some s := by
  have hall : (s.toList.map some).mapM id = some s.toList := by
    induction s.toList with
    | nil => rfl
    | cons c rest ih => simp [ih]
  rw [decode, pieces_bytesOf, hall, Option.map_some, String.ofList_toList]

theorem decodeLossy_bytesOf (s : String) : decodeLossy (bytesOf s) = s := by
  have hid : ((·.getD '\uFFFD') ∘ some : Char → Char) = id := rfl
  rw [decodeLossy, pieces_bytesOf, List.map_map, hid, List.map_id, String.ofList_toList]

-- A text is decoded from its own bytes only.

theorem toNat_ofNat {n : Nat} (h : n.isValidChar) : (Char.ofNat n).toNat = n := by
  rw [Char.ofNat, dif_pos h]
  rfl

theorem byte_eq {b : UInt8} {n : Nat} (h : n = b.toNat) : UInt8.ofNat n = b := by
  rw [h, UInt8.ofNat_toNat]

section Step

variable {a b c d : UInt8}

theorem encodeChar_one (ha : a < 0x80) : String.utf8EncodeChar (Char.ofNat a.toNat) = [a] := by
  have hlow : a.toNat < 0x80 := UInt8.lt_iff_toNat_lt.mp ha
  have hchar : (Char.ofNat a.toNat).toNat = a.toNat := toNat_ofNat (.inl (by omega))
  rw [encodeChar_ascii (by omega), hchar, UInt8.ofNat_toNat]

theorem encodeChar_two (hlead : (0xC2 ≤ a && a ≤ 0xDF) = true) (hsecond : isSecond a b = true) :
    String.utf8EncodeChar (Char.ofNat (a.toNat % 32 * 64 + low b)) = [a, b] := by
  simp only [Bool.and_eq_true, decide_eq_true_eq, UInt8.le_iff_toNat_le, UInt8.reduceToNat] at hlead
  rw [isSecond_iff] at hsecond
  have hlow : low b = b.toNat - 0x80 := by unfold low; omega
  have hchar : (Char.ofNat (a.toNat % 32 * 64 + low b)).val.toNat = a.toNat % 32 * 64 + low b :=
    toNat_ofNat (.inl (by omega))
  simp only [String.utf8EncodeChar, hchar]
  rw [if_neg (by omega), if_pos (by omega), byte_eq (b := a) (by omega), byte_eq (b := b) (by omega)]

theorem encodeChar_three (hlead : (0xE0 ≤ a && a ≤ 0xEF) = true) (hsecond : isSecond a b = true)
    (hthird : isTail c = true) :
    String.utf8EncodeChar (Char.ofNat (a.toNat % 16 * 4096 + low b * 64 + low c)) = [a, b, c] := by
  simp only [Bool.and_eq_true, decide_eq_true_eq, UInt8.le_iff_toNat_le, UInt8.reduceToNat] at hlead
  rw [isSecond_iff] at hsecond
  rw [isTail_iff] at hthird
  have hb : low b = b.toNat - 0x80 := by unfold low; omega
  have hc : low c = c.toNat - 0x80 := by unfold low; omega
  have hchar : (Char.ofNat (a.toNat % 16 * 4096 + low b * 64 + low c)).val.toNat =
      a.toNat % 16 * 4096 + low b * 64 + low c :=
    toNat_ofNat (by unfold Nat.isValidChar; omega)
  simp only [String.utf8EncodeChar, hchar]
  rw [if_neg (by omega), if_neg (by omega), if_pos (by omega), byte_eq (b := a) (by omega),
    byte_eq (b := b) (by omega), byte_eq (b := c) (by omega)]

theorem encodeChar_four (hlead : (0xF0 ≤ a && a ≤ 0xF4) = true) (hsecond : isSecond a b = true)
    (hthird : isTail c = true) (hfourth : isTail d = true) :
    String.utf8EncodeChar
      (Char.ofNat (a.toNat % 8 * 262144 + low b * 4096 + low c * 64 + low d)) = [a, b, c, d] := by
  simp only [Bool.and_eq_true, decide_eq_true_eq, UInt8.le_iff_toNat_le, UInt8.reduceToNat] at hlead
  rw [isSecond_iff] at hsecond
  rw [isTail_iff] at hthird hfourth
  have hb : low b = b.toNat - 0x80 := by unfold low; omega
  have hc : low c = c.toNat - 0x80 := by unfold low; omega
  have hd : low d = d.toNat - 0x80 := by unfold low; omega
  have hchar : (Char.ofNat (a.toNat % 8 * 262144 + low b * 4096 + low c * 64 + low d)).val.toNat =
      a.toNat % 8 * 262144 + low b * 4096 + low c * 64 + low d :=
    toNat_ofNat (by unfold Nat.isValidChar; omega)
  simp only [String.utf8EncodeChar, hchar]
  rw [if_neg (by omega), if_neg (by omega), if_neg (by omega), byte_eq (b := a) (by omega),
    byte_eq (b := b) (by omega), byte_eq (b := c) (by omega), byte_eq (b := d) (by omega)]

end Step

theorem eq_append_of_step {bytes : Bytes} {c : Char} {n : Nat} (h : step bytes = (some c, n)) :
    bytes = String.utf8EncodeChar c ++ bytes.drop n := by
  unfold step at h
  repeat' split at h
  all_goals cases h
  · rw [encodeChar_one ‹_›]
    rfl
  · rw [encodeChar_two ‹_› ‹_›]
    rfl
  · rw [encodeChar_three ‹_› (by simpa using ‹¬(!isSecond _ _) = true›) ‹_›]
    rfl
  · rw [encodeChar_four ‹_› (by simpa using ‹¬(!isSecond _ _) = true›)
      (by simpa using ‹¬(!isTail _) = true›) ‹_›]
    rfl

theorem bytesOf_of_decode {bytes : Bytes} {s : String} (h : decode bytes = some s) :
    bytesOf s = bytes := by
  obtain ⟨text, htext, rfl⟩ := Option.map_eq_some_iff.mp h
  rw [bytesOf_ofList]
  clear h
  fun_induction pieces bytes generalizing text with
  | case1 =>
      cases htext
      rfl
  | case2 a rest ih =>
      cases hchar : (step (a :: rest)).1 with
      | none => simp [hchar] at htext
      | some c =>
          simp only [hchar, List.mapM_cons, id_eq, Option.pure_def, Option.bind_eq_bind,
            Option.bind_some, Option.bind_eq_some_iff] at htext
          obtain ⟨more, hmore, heq⟩ := htext
          cases heq
          rw [encode_cons, ih more hmore]
          exact (eq_append_of_step (Prod.ext hchar rfl)).symm

-- The order of the code points is the order of their bytes.

theorem encodeChar_lt {c d : Char} (h : c < d) (rest more : Bytes) :
    String.utf8EncodeChar c ++ rest < String.utf8EncodeChar d ++ more := by
  have hlt : c.toNat < d.toNat := h
  have hvalid : d.toNat < 0xD800 ∨ 0xDFFF < d.toNat ∧ d.toNat < 0x110000 := d.valid
  have hc : c.val.toNat = c.toNat := rfl
  have hd : d.val.toNat = d.toNat := rfl
  have hlead : c.toNat / 262144 < 8 ∧ d.toNat / 262144 < 8 := by omega
  simp only [String.utf8EncodeChar, hc, hd]
  -- A longer form has a larger lead. In forms of one length the first byte that differs is the
  -- first digit to the base of 64 that does.
  split_ifs <;> simp (disch := omega) only [List.cons_append, List.nil_append,
    List.cons_lt_cons_iff, UInt8.lt_iff_toNat_lt, ← UInt8.toNat_inj, toNat_byte]
  all_goals omega

theorem encode_lt {text more : List Char} (h : text < more) : encode text < encode more := by
  induction text generalizing more with
  | nil =>
      cases more with
      | nil => exact absurd h (List.not_lt_nil _)
      | cons d more =>
          rw [encode_cons]
          cases hbytes : String.utf8EncodeChar d with
          | nil => exact absurd hbytes String.utf8EncodeChar_ne_nil
          | cons b rest => exact List.nil_lt_cons _ _
  | cons c rest ih =>
      cases more with
      | nil => exact absurd h (List.not_lt_nil _)
      | cons d more =>
          rw [encode_cons, encode_cons]
          rcases List.cons_lt_cons_iff.mp h with hlt | ⟨rfl, hrest⟩
          · exact encodeChar_lt hlt _ _
          · exact List.append_left_lt (ih hrest)

theorem bytesOf_lt {s t : String} (h : s < t) : bytesOf s < bytesOf t :=
  encode_lt (String.lt_iff.mp h)

end RequestGuard.Utf8
