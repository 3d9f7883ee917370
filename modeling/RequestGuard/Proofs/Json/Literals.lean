import RequestGuard.Json.Reader
import RequestGuard.Proofs.Text.Numeral
import RequestGuard.Proofs.Text.Utf8
import Mathlib.Tactic.SplitIfs

namespace RequestGuard.Json

open Utf8 (encode)

-- Texts: what the writer escapes, the reader takes for the character again.

section Content

variable {rest more last : Bytes}

theorem readContent_quote (rest : Bytes) : readContent (0x22 :: rest) = .ok ([], rest) := by
  rw [readContent]
  rfl

theorem readContent_backslash {content after : Bytes} (hescape : readEscape rest = .ok (content, after))
    (hmore : readContent after = .ok (more, last)) :
    readContent (0x5C :: rest) = .ok (content ++ more, last) := by
  rw [readContent, if_neg (by decide), if_pos (by decide)]
  split
  · next fault hfault => exact absurd (hfault.symm.trans hescape) (by simp)
  · next found behind hfound =>
      cases hfound.symm.trans hescape
      simp only [hmore]

-- The bytes that stand for themselves in a text.
def isPlainByte (b : UInt8) : Bool :=
  b != 0x22 && b != 0x5C && !(b < 0x20)

theorem readContent_plain {bytes : Bytes} (h : ∀ b ∈ bytes, isPlainByte b = true)
    (hmore : readContent rest = .ok (more, last)) :
    readContent (bytes ++ rest) = .ok (bytes ++ more, last) := by
  induction bytes with
  | nil => exact hmore
  | cons b bytes ih =>
      obtain ⟨hb, hbytes⟩ := List.forall_mem_cons.mp h
      simp only [isPlainByte, Bool.and_eq_true, bne_iff_ne, Bool.not_eq_true',
        decide_eq_false_iff_not] at hb
      obtain ⟨⟨hquote, hbackslash⟩, hcontrol⟩ := hb
      rw [List.cons_append, readContent, if_neg (by simpa using hquote),
        if_neg (by simpa using hbackslash), if_neg hcontrol]
      simp only [ih hbytes, List.cons_append]

end Content

theorem isPlainByte_encodeChar {c : Char} (hquote : c ≠ '"') (hbackslash : c ≠ '\\')
    (hcontrol : ¬c.toNat < 0x20) : ∀ b ∈ String.utf8EncodeChar c, isPlainByte b = true := by
  by_cases hascii : c.toNat < 0x80
  · have hbyte : (UInt8.ofNat c.toNat).toNat = c.toNat := Utf8.toNat_byte (by omega)
    have hne : ∀ d : Char, c ≠ d → c.toNat ≠ d.toNat := fun d hd h => hd (Char.toNat_inj.mp h)
    have hq := hne _ hquote
    have hb := hne _ hbackslash
    rw [Utf8.encodeChar_ascii hascii, List.forall_mem_singleton]
    simp only [isPlainByte, UInt8.lt_iff_toNat_lt, bne, ← UInt8.toNat_inj, beq_eq_decide, hbyte]
    simpa using ⟨⟨hq, hb⟩, Nat.not_lt.mp hcontrol⟩
  · intro b hb
    have hlarge := Utf8.le_of_mem_encodeChar (Nat.not_lt.mp hascii) b hb
    simp [isPlainByte, UInt8.lt_iff_toNat_lt, ← UInt8.toNat_inj]
    omega

theorem hexValue_hexDigit :
    ∀ n < 16, hexValue (UInt8.ofNat (Text.hexDigit n).toNat) = some n ∧
      (Text.hexDigit n).toNat < 0x80 := by
  decide

-- A control is written by its number, as two zeros and two more digits.
theorem readEscape_control {c : Char} (h : c.toNat < 0x20) (rest : Bytes) :
    readEscape (encode ['u', '0', '0', Text.hexDigit (c.toNat / 16),
      Text.hexDigit (c.toNat % 16)] ++ rest) = .ok (String.utf8EncodeChar c, rest) := by
  obtain ⟨hhigh, hhighAscii⟩ := hexValue_hexDigit (c.toNat / 16) (by omega)
  obtain ⟨hlow, hlowAscii⟩ := hexValue_hexDigit (c.toNat % 16) (by omega)
  have hbytes : encode ['u', '0', '0', Text.hexDigit (c.toNat / 16), Text.hexDigit (c.toNat % 16)] =
      [0x75, 0x30, 0x30, UInt8.ofNat (Text.hexDigit (c.toNat / 16)).toNat,
        UInt8.ofNat (Text.hexDigit (c.toNat % 16)).toNat] := by
    rw [Utf8.encode_ascii]
    · rfl
    · simp [hhighAscii, hlowAscii]
  have hzero : hexValue 0x30 = some 0 := by decide
  have hnumber : 0 * 4096 + 0 * 256 + c.toNat / 16 * 16 + c.toNat % 16 = c.toNat := by omega
  have hleading : isLeading c.toNat = false := by simp [isLeading]; omega
  have htrailing : isTrailing c.toNat = false := by simp [isTrailing]; omega
  have hhex : readHex (0x30 :: 0x30 :: UInt8.ofNat (Text.hexDigit (c.toNat / 16)).toNat ::
      UInt8.ofNat (Text.hexDigit (c.toNat % 16)).toNat :: rest) = .ok (c.toNat, rest) := by
    simp only [readHex, hzero, hhigh, hlow, hnumber]
  rw [hbytes]
  show readCodePoint (0x30 :: 0x30 :: UInt8.ofNat (Text.hexDigit (c.toNat / 16)).toNat ::
    UInt8.ofNat (Text.hexDigit (c.toNat % 16)).toNat :: rest) = _
  simp only [readCodePoint, hhex, htrailing, hleading, codePoint, Char.ofNat_toNat, Bool.not_false,
    Bool.false_eq_true, if_false, if_true]

theorem readContent_escape (c : Char) {rest more last : Bytes}
    (hmore : readContent rest = .ok (more, last)) :
    readContent (encode (escape c) ++ rest) = .ok (String.utf8EncodeChar c ++ more, last) := by
  -- a mark behind the backslash stands for one character
  have hmark : ∀ mark : UInt8, readEscape (mark :: rest) = .ok (String.utf8EncodeChar c, rest) →
      readContent (0x5C :: mark :: rest) = .ok (String.utf8EncodeChar c ++ more, last) :=
    fun _ hread => readContent_backslash hread hmore
  unfold escape
  split_ifs with h₁ h₂ h₃ h₄ h₅ h₆ h₇ h₈
  · exact hmark 0x22 (beq_iff_eq.mp h₁ ▸ rfl)
  · exact hmark 0x5C (beq_iff_eq.mp h₂ ▸ rfl)
  · exact hmark 0x62 (beq_iff_eq.mp h₃ ▸ rfl)
  · exact hmark 0x66 (beq_iff_eq.mp h₄ ▸ rfl)
  · exact hmark 0x6E (beq_iff_eq.mp h₅ ▸ rfl)
  · exact hmark 0x72 (beq_iff_eq.mp h₆ ▸ rfl)
  · exact hmark 0x74 (beq_iff_eq.mp h₇ ▸ rfl)
  · exact readContent_backslash (readEscape_control h₈ rest) hmore
  · have hplain := isPlainByte_encodeChar (by simpa using h₁) (by simpa using h₂) h₈
    rw [Utf8.encode_cons, Utf8.encode_nil, List.append_nil]
    exact readContent_plain hplain hmore

theorem readContent_writeText (text : List Char) (rest : Bytes) :
    readContent (encode (text.flatMap escape) ++ 0x22 :: rest) = .ok (encode text, rest) := by
  induction text with
  | nil => exact readContent_quote rest
  | cons c text ih =>
      rw [List.flatMap_cons, Utf8.encode_append, List.append_assoc, Utf8.encode_cons]
      exact readContent_escape c ih

-- The text behind its opening quote.
theorem readText_writeText (s : String) (rest : Bytes) :
    readText (encode (s.toList.flatMap escape) ++ 0x22 :: rest) = .ok (s, rest) := by
  have hdecode : Utf8.decode (encode s.toList) = some s := Utf8.decode_bytesOf s
  simp only [readText, readContent_writeText, hdecode]

-- Whole numbers: the digits of those that fit a word are read back.

-- A number does not go on with the bytes behind it.
def EndsNumber (rest : Bytes) : Prop :=
  ∀ b ∈ rest.head?, isDigit b = false ∧ b ≠ 0x2E ∧ isExponentMark b = false

def digitByte (c : Char) : UInt8 :=
  UInt8.ofNat c.toNat

theorem digitByte_of_isDigit {c : Char} (h : c.isDigit = true) :
    (digitByte c).toNat = c.toNat ∧ isDigit (digitByte c) = true ∧ c.toNat < 0x80 := by
  have hrange : 48 ≤ c.toNat ∧ c.toNat ≤ 57 := by
    simp only [Char.isDigit, Bool.and_eq_true, decide_eq_true_eq] at h
    exact ⟨UInt32.le_iff_toNat_le.mp h.1, UInt32.le_iff_toNat_le.mp h.2⟩
  have hbyte : (digitByte c).toNat = c.toNat := Utf8.toNat_byte (by omega)
  refine ⟨hbyte, ?_, by omega⟩
  simp only [isDigit, UInt8.le_iff_toNat_le, hbyte, Bool.and_eq_true, decide_eq_true_eq]
  exact hrange

theorem encode_digits {text : List Char} (h : ∀ c ∈ text, c.isDigit = true) :
    encode text = text.map digitByte :=
  Utf8.encode_ascii fun c hc => (digitByte_of_isDigit (h c hc)).2.2

theorem isDigit_of_mem_digits {text : List Char} (h : ∀ c ∈ text, c.isDigit = true) :
    ∀ b ∈ text.map digitByte, isDigit b = true := by
  intro b hb
  obtain ⟨c, hc, rfl⟩ := List.mem_map.mp hb
  exact (digitByte_of_isDigit (h c hc)).2.1

theorem le_foldl_digits (text : List Char) (s : Nat) :
    s ≤ text.foldl (fun total c => total * 10 + (c.toNat - 48)) s := by
  induction text generalizing s with
  | nil => exact Nat.le_refl s
  | cons c rest ih =>
      have hrest := ih (s * 10 + (c.toNat - 48))
      rw [List.foldl_cons]
      omega

-- Digits whose value fits a word are all absorbed.
theorem absorb_digits {text : List Char} (hdigits : ∀ c ∈ text, c.isDigit = true) (s : Nat)
    (h : text.foldl (fun total c => total * 10 + (c.toNat - 48)) s ≤ Numeral.maxWord) :
    absorb s (text.map digitByte) =
      (text.foldl (fun total c => total * 10 + (c.toNat - 48)) s, text.length, 0) := by
  induction text generalizing s with
  | nil => rfl
  | cons c rest ih =>
      obtain ⟨hc, hrest⟩ := List.forall_mem_cons.mp hdigits
      have hvalue : digitValue (digitByte c) = c.toNat - 48 := by
        rw [digitValue, (digitByte_of_isDigit hc).1]
      have hfits := Nat.le_trans (le_foldl_digits rest _) h
      rw [List.foldl_cons] at h
      rw [List.map_cons, absorb, hvalue]
      simp only [if_pos hfits, ih hrest _ h, List.foldl_cons, List.length_cons]

theorem readNumberTail_whole (negative : Bool) {digits rest : Bytes} {s taken : Nat}
    (habsorb : absorb 0 digits = (s, taken, 0)) (hrest : EndsNumber rest) :
    readNumberTail negative digits rest = .ok (wholeNumber negative s, rest) := by
  cases rest with
  | nil => simp only [readNumberTail, habsorb, if_true]
  | cons b after =>
      obtain ⟨-, hpoint, hmark⟩ := hrest b rfl
      unfold readNumberTail
      simp only [habsorb, hmark, if_true, Bool.false_eq_true, if_false]

theorem span_digits {digits rest : Bytes} (hdigits : ∀ b ∈ digits, isDigit b = true)
    (hrest : EndsNumber rest) :
    (digits ++ rest).takeWhile isDigit = digits ∧ (digits ++ rest).dropWhile isDigit = rest := by
  rw [List.takeWhile_append_of_pos hdigits, List.dropWhile_append_of_pos hdigits]
  cases rest with
  | nil => simp
  | cons b after =>
      have hb := (hrest b rfl).1
      simp [hb]

-- No digits but a lone zero begin with a zero.
theorem exists_cons_digits {n : Nat} (hn : n ≠ 0) {rest : Bytes} (hrest : EndsNumber rest) :
    ∃ d more, (Numeral.digits n).map digitByte = d :: more ∧ d ≠ 0x30 ∧ isDigit d = true ∧
      (more ++ rest).takeWhile isDigit = more ∧ (more ++ rest).dropWhile isDigit = rest := by
  have hdigits := Numeral.digits_isDigit n
  obtain ⟨c, more, hcons⟩ := List.exists_cons_of_ne_nil (Numeral.digits_ne_nil n)
  have hfirst : c ≠ '0' := by
    intro hc
    exact Numeral.head?_digits hn (by rw [hcons, hc]; rfl)
  rw [hcons] at hdigits ⊢
  obtain ⟨hc, hmore⟩ := List.forall_mem_cons.mp hdigits
  obtain ⟨hbyte, hdigit, -⟩ := digitByte_of_isDigit hc
  have hlead : digitByte c ≠ 0x30 := by
    intro h
    have hnat : c.toNat = '0'.toNat := by rw [← hbyte, h]; rfl
    exact hfirst (Char.toNat_inj.mp hnat)
  obtain ⟨htake, hdrop⟩ := span_digits (isDigit_of_mem_digits hmore) hrest
  exact ⟨_, _, rfl, hlead, hdigit, htake, hdrop⟩

theorem readNumber_digits (negative : Bool) {n : Nat} (hn : n ≤ Numeral.maxWord) {rest : Bytes}
    (hrest : EndsNumber rest) :
    readNumber negative (encode (Numeral.digits n) ++ rest) =
      .ok (wholeNumber negative n, rest) := by
  have hdigits := Numeral.digits_isDigit n
  have hvalue : (Numeral.digits n).foldl (fun total c => total * 10 + (c.toNat - 48)) 0 = n :=
    Numeral.value_digits n
  have habsorb := absorb_digits hdigits 0 (by rw [hvalue]; exact hn)
  rw [hvalue] at habsorb
  have htail := readNumberTail_whole negative habsorb hrest
  rw [encode_digits hdigits]
  by_cases hzero : n = 0
  · subst hzero
    rw [Numeral.digits_zero] at htail ⊢
    cases rest with
    | nil => exact htail
    | cons b after =>
        have hb := (hrest b rfl).1
        simpa [readNumber, digitByte, hb] using htail
  · obtain ⟨d, more, hcons, hlead, hdigit, htake, hdrop⟩ := exists_cons_digits hzero hrest
    rw [hcons] at htail ⊢
    simpa [readNumber, hlead, hdigit, htake, hdrop] using htail

end RequestGuard.Json
