import RequestGuard.Proofs.Json.Extent
import RequestGuard.Proofs.Json.Skipping

namespace RequestGuard.Json

open Markup (weight)

-- What a byte of a text takes when it is written again. Beyond ASCII bytes stand for themselves.
def quotedByteSize (b : UInt8) : Nat :=
  if b.toNat < 0x80 then quotedSize (Char.ofNat b.toNat) else 1

def quotedBytesSize (bytes : Bytes) : Nat :=
  (bytes.map quotedByteSize).sum

@[simp] theorem quotedBytesSize_nil : quotedBytesSize [] = 0 := rfl

@[simp] theorem quotedBytesSize_cons (b : UInt8) (rest : Bytes) :
    quotedBytesSize (b :: rest) = quotedByteSize b + quotedBytesSize rest := by
  simp [quotedBytesSize]

@[simp] theorem quotedBytesSize_append (bytes more : Bytes) :
    quotedBytesSize (bytes ++ more) = quotedBytesSize bytes + quotedBytesSize more := by
  simp [quotedBytesSize]

theorem quotedSize_of_plain {c : Char} (hquote : c ≠ '"') (hbackslash : c ≠ '\\')
    (hcontrol : 0x20 ≤ c.toNat) : quotedSize c = c.utf8Size := by
  have hne : ∀ d : Char, d.toNat < 0x20 → c ≠ d := fun d hd heq => by
    subst heq
    omega
  simp [quotedSize, escape, hquote, hbackslash, hne '\x08' (by decide), hne '\x0c' (by decide),
    hne '\n' (by decide), hne '\r' (by decide), hne '\t' (by decide), Nat.not_lt.mpr hcontrol]

theorem quotedSize_of_not_ascii {c : Char} (h : ¬ c.toNat < 0x80) : quotedSize c = c.utf8Size := by
  have hne : ∀ d : Char, d.toNat < 0x80 → c ≠ d := fun d hd heq => by
    subst heq
    omega
  exact quotedSize_of_plain (hne '"' (by decide)) (hne '\\' (by decide)) (by omega)

theorem quotedSize_ascii_le : ∀ n < 0x80, quotedSize (Char.ofNat n) ≤ 6 := by
  decide +kernel

theorem quotedSize_le (c : Char) : quotedSize c ≤ 6 := by
  by_cases hascii : c.toNat < 0x80
  · have hle := quotedSize_ascii_le c.toNat hascii
    rwa [Char.ofNat_toNat] at hle
  · have hsize := c.utf8Size_le_four
    rw [quotedSize_of_not_ascii hascii]
    omega

-- The bytes of a character take together what it takes.
theorem quotedBytesSize_encodeChar (c : Char) :
    quotedBytesSize (String.utf8EncodeChar c) = quotedSize c := by
  by_cases hascii : c.toNat < 0x80
  · have hbyte : (UInt8.ofNat c.toNat).toNat = c.toNat := Utf8.toNat_byte (by omega)
    rw [Utf8.encodeChar_ascii hascii, quotedBytesSize_cons, quotedByteSize, hbyte, if_pos hascii,
      Char.ofNat_toNat]
    rfl
  · have hone : ∀ b ∈ String.utf8EncodeChar c, quotedByteSize b = 1 := by
      intro b hb
      have hlarge := Utf8.le_of_mem_encodeChar (Nat.not_lt.mp hascii) b hb
      rw [quotedByteSize, if_neg (Nat.not_lt.mpr hlarge)]
    rw [quotedSize_of_not_ascii hascii, quotedBytesSize, List.map_congr_left hone,
      List.map_const', List.sum_replicate, String.length_utf8EncodeChar]
    simp

theorem quotedBytesSize_bytesOf (s : String) :
    quotedBytesSize (bytesOf s) = weight quotedSize s.toList := by
  unfold bytesOf
  induction s.toList with
  | nil => rfl
  | cons c rest ih =>
      rw [List.flatMap_cons, quotedBytesSize_append, quotedBytesSize_encodeChar, ih,
        Markup.weight_cons]

theorem quotedByteSize_of_plain {b : UInt8} (h : isPlainByte b = true) : quotedByteSize b = 1 := by
  have hall : ∀ n < 256, isPlainByte (UInt8.ofNat n) = true →
      quotedByteSize (UInt8.ofNat n) = 1 := by
    decide +kernel
  have hb := hall b.toNat b.toNat_lt
  rw [UInt8.ofNat_toNat] at hb
  exact hb h

-- A text takes no more bytes between quotes than it has been read from.

theorem length_of_readHex {text rest : Bytes} {n : Nat} (h : readHex text = .ok (n, rest)) :
    text.length = rest.length + 4 := by
  unfold readHex at h
  repeat' split at h
  all_goals cases h
  rfl

theorem codePoint_intake (n : Nat) : quotedBytesSize (codePoint n) ≤ 6 := by
  rw [codePoint, quotedBytesSize_encodeChar]
  exact quotedSize_le _

theorem readCodePoint_intake {text content rest : Bytes}
    (h : readCodePoint text = .ok (content, rest)) :
    quotedBytesSize content + rest.length ≤ text.length + 2 := by
  have hcontent : quotedBytesSize content ≤ 6 := by
    unfold readCodePoint at h
    repeat' split at h
    all_goals try contradiction
    · rw [← (Prod.mk.inj (Except.ok.inj h)).1]
      exact codePoint_intake _
    · rw [← (Prod.mk.inj (Except.ok.inj h)).1]
      exact codePoint_intake _
  obtain ⟨n, after, hread, hrest⟩ := readCodePoint_eq_ok h
  have hlength := length_of_readHex hread
  rcases hrest with rfl | ⟨behind, m, rfl, hlast⟩
  · omega
  · have hmore := length_of_readHex hlast
    simp only [List.length_cons] at hlength
    omega

theorem readEscape_intake {text content rest : Bytes}
    (h : readEscape text = .ok (content, rest)) :
    quotedBytesSize content + rest.length ≤ text.length + 1 := by
  unfold readEscape at h
  split at h
  · contradiction
  · next c after =>
      have hshort : ∀ {bytes : Bytes}, quotedBytesSize bytes ≤ 2 →
          (.ok (bytes, after) : Except Fault (Bytes × Bytes)) = .ok (content, rest) →
          quotedBytesSize content + rest.length ≤ (c :: after).length + 1 := by
        intro bytes hbytes heq
        cases heq
        rw [List.length_cons]
        omega
      have hmark : ∀ b : UInt8, (b == 0x22 || b == 0x5C || b == 0x2F) = true →
          quotedBytesSize [b] ≤ 2 := by
        intro b hb
        simp only [Bool.or_eq_true, beq_iff_eq] at hb
        obtain (rfl | rfl) | rfl := hb <;> decide
      split_ifs at h with hsame
      · exact hshort (hmark c hsame) h
      · exact hshort (by decide) h
      · exact hshort (by decide) h
      · exact hshort (by decide) h
      · exact hshort (by decide) h
      · exact hshort (by decide) h
      · have hread := readCodePoint_intake h
        rw [List.length_cons]
        omega

theorem readContent_intake {text content rest : Bytes}
    (h : readContent text = .ok (content, rest)) :
    quotedBytesSize content + rest.length + 1 ≤ text.length := by
  fun_induction readContent text generalizing content with
  | case2 b tail hquote =>
      cases h
      simp
  | case5 b tail hquote hbackslash found behind hread hshort more last hmore ih =>
      cases h
      have hescape := readEscape_intake hread
      have htail := ih hmore
      rw [quotedBytesSize_append, List.length_cons]
      omega
  | case8 b tail hquote hbackslash hcontrol more last hmore ih =>
      cases h
      have hplain : isPlainByte b = true := by
        simp [isPlainByte, bne, hquote, hbackslash, hcontrol]
      have htail := ih hmore
      rw [quotedBytesSize_cons, quotedByteSize_of_plain hplain, List.length_cons]
      omega
  | _ => contradiction

theorem readText_intake {text rest : Bytes} {s : String} (h : readText text = .ok (s, rest)) :
    weight quotedSize s.toList + rest.length + 1 ≤ text.length := by
  unfold readText at h
  split at h
  · contradiction
  · next content after hcontent =>
      have hlength := readContent_intake hcontent
      split at h
      · next hdecode =>
          cases h
          rw [← quotedBytesSize_bytesOf, Utf8.bytesOf_of_decode hdecode]
          exact hlength
      · contradiction

-- What a value was read from, by its first byte behind blanks.
inductive Begun (put : String → Json → List (String × Json) → List (String × Json)) :
    Nat → Bytes → Json → Bytes → Prop where
  | null {nesting : Nat} {text rest : Bytes} (hword : readWord rull text = .ok rest) :
      Begun put nesting (0x6E :: text) null rest
  | true {nesting : Nat} {text rest : Bytes} (hword : readWord rrue text = .ok rest) :
      Begun put nesting (0x74 :: text) (bool true) rest
  | false {nesting : Nat} {text rest : Bytes} (hword : readWord ralse text = .ok rest) :
      Begun put nesting (0x66 :: text) (bool false) rest
  | minus {nesting : Nat} {text rest : Bytes} {n : Number}
      (hnumber : readNumber true text = .ok (n, rest)) :
      Begun put nesting (0x2D :: text) (number n) rest
  | digit {nesting : Nat} {text rest : Bytes} {n : Number}
      (hnumber : readNumber false text = .ok (n, rest)) : Begun put nesting text (number n) rest
  | text {nesting : Nat} {text rest : Bytes} {s : String} (htext : readText text = .ok (s, rest)) :
      Begun put nesting (0x22 :: text) (.text s) rest
  | array {inner fuel : Nat} {text rest : Bytes} {items : List Json}
      (hitems : readItems (readValueWith put inner) fuel true text = .ok (items, rest)) :
      Begun put (inner + 1) (0x5B :: text) (array items) rest
  | object {inner fuel : Nat} {text rest : Bytes} {members : List (String × Json)}
      (hmembers : readMembers (readMember put (readValueWith put inner)) fuel true [] text =
        .ok (members, rest)) :
      Begun put (inner + 1) (0x7B :: text) (object members) rest

theorem begun_of_readValueWith
    {put : String → Json → List (String × Json) → List (String × Json)} {nesting : Nat}
    {input rest : Bytes} {value : Json}
    (h : readValueWith put nesting input = .ok (value, rest)) :
    Begun put nesting (skip input) value rest := by
  unfold readValueWith constant at h
  split at h
  · contradiction
  · next b text hskip =>
      rw [hskip]
      split_ifs at h with hnull htrue hfalse hminus hdigit hquote hopen hbrace
      · obtain ⟨after, hword, ⟨⟩⟩ := map_eq_ok h
        exact beq_iff_eq.mp hnull ▸ .null hword
      · obtain ⟨after, hword, ⟨⟩⟩ := map_eq_ok h
        exact beq_iff_eq.mp htrue ▸ .true hword
      · obtain ⟨after, hword, ⟨⟩⟩ := map_eq_ok h
        exact beq_iff_eq.mp hfalse ▸ .false hword
      · obtain ⟨⟨n, after⟩, hnumber, ⟨⟩⟩ := map_eq_ok h
        exact beq_iff_eq.mp hminus ▸ .minus hnumber
      · obtain ⟨⟨n, after⟩, hnumber, ⟨⟩⟩ := map_eq_ok h
        exact .digit hnumber
      · obtain ⟨⟨s, after⟩, htext, ⟨⟩⟩ := map_eq_ok h
        exact beq_iff_eq.mp hquote ▸ .text htext
      · rw [beq_iff_eq.mp hopen]
        split at h
        · contradiction
        · split at h
          · contradiction
          · next hitems =>
              cases h
              exact .array hitems
      · rw [beq_iff_eq.mp hbrace]
        split at h
        · contradiction
        · split at h
          · contradiction
          · next hmembers =>
              cases h
              exact .object hmembers

theorem length_skip_le (text : Bytes) : (skip text).length ≤ text.length :=
  (List.dropWhile_sublist isSpace).length_le

theorem length_of_skip {text rest : Bytes} {b : UInt8} (h : skip text = b :: rest) :
    rest.length + 1 ≤ text.length := by
  have hlength := length_skip_le text
  rwa [h] at hlength

section Priced

variable {price : Nat}

-- What is bought at so much a byte stays bought when more bytes are paid for.
theorem paid_of_le {bought left bytes more : Nat} (h : bought + price * left ≤ price * bytes)
    (hmore : bytes ≤ more) : bought + price * left ≤ price * more :=
  h.trans (Nat.mul_le_mul_left price hmore)

-- The separators in front of all items but the first and the closing bracket are paid for too.
theorem readItems_intake {item : Reader α} {size : α → Nat} (hprice : 1 ≤ price)
    (hitem : ∀ {text a rest}, item text = .ok (a, rest) →
      size a + price * rest.length ≤ price * text.length) {fuel : Nat} {first : Bool}
    {input rest : Bytes} {items : List α}
    (h : readItems item fuel first input = .ok (items, rest)) :
    (items.map (size · + 1)).sum - first.toNat + 1 + price * rest.length ≤
      price * input.length := by
  induction fuel generalizing first input items rest with
  | zero => contradiction
  | succ fuel ih =>
      have hnext : ∀ {text a after more last}, item text = .ok (a, after) →
          readItems item fuel false after = .ok (more, last) →
          size a + (more.map (size · + 1)).sum + 1 + price * last.length ≤
            price * text.length := by
        intro text a after more last hfirst hmore
        have hpaid := hitem hfirst
        have hrest := ih hmore
        simp only [Bool.toNat_false] at hrest
        omega
      simp only [readItems] at h
      repeat' split at h
      all_goals cases h
      · have hlength := Nat.mul_le_mul_left price (length_of_skip ‹skip input = _›)
        simp only [List.map_nil, List.sum_nil, Nat.mul_add, Nat.mul_one] at hlength ⊢
        omega
      · have hlength := Nat.mul_le_mul_left price (length_of_skip ‹skip input = _›)
        have hpaid := hnext ‹item _ = .ok _› ‹readItems item fuel false _ = .ok _›
        simp only [List.length_cons, List.map_cons, List.sum_cons, Nat.mul_add, Nat.mul_one,
          ‹first = true›, Bool.toNat_true] at hlength hpaid ⊢
        omega
      · have hlength := Nat.mul_le_mul_left price (length_of_skip ‹skip input = _›)
        have hcomma := Nat.mul_le_mul_left price (length_of_skip ‹skip (_ : Bytes) = _›)
        have hpaid := hnext ‹item _ = .ok _› ‹readItems item fuel false _ = .ok _›
        simp only [List.length_cons, List.map_cons, List.sum_cons, Nat.mul_add, Nat.mul_one]
          at hlength hcomma hpaid ⊢
        omega

-- A member is entered behind its opening quote, and what is gathered counts that quote and a comma
-- with it.
theorem readMembers_intake {entry : σ → Reader σ} {measure : σ → Nat} (hprice : 1 ≤ price)
    (hentry : ∀ {gathered text more rest}, entry gathered text = .ok (more, rest) →
      1 ≤ measure more ∧
        measure more + price * rest.length ≤ measure gathered + price * text.length + 2)
    {fuel : Nat} {first : Bool} {gathered result : σ} {input rest : Bytes}
    (h : readMembers entry fuel first gathered input = .ok (result, rest)) :
    measure result - first.toNat + 1 + price * rest.length ≤
      measure gathered + price * input.length := by
  induction fuel generalizing first gathered input with
  | zero => contradiction
  | succ fuel ih =>
      have hnext : ∀ {text more after}, entry gathered text = .ok (more, after) →
          readMembers entry fuel false more after = .ok (result, rest) →
          1 ≤ measure result ∧
            measure result + price * rest.length ≤ measure gathered + price * text.length + 1 := by
        intro text more after hfirst hmore
        obtain ⟨hsome, hpaid⟩ := hentry hfirst
        have hrest := ih hmore
        have hresult : 1 ≤ measure result :=
          readMembers_preserves (P := fun gathered => 1 ≤ measure gathered)
            (fun _ hread => (hentry hread).1) hsome hmore
        simp only [Bool.toNat_false] at hrest
        exact ⟨hresult, by omega⟩
      simp only [readMembers] at h
      repeat' split at h
      all_goals try contradiction
      · cases h
        have hlength := Nat.mul_le_mul_left price (length_of_skip ‹skip input = _›)
        rw [Nat.mul_add, Nat.mul_one] at hlength
        omega
      · have hlength := Nat.mul_le_mul_left price (length_of_skip ‹skip input = _›)
        obtain ⟨hresult, hpaid⟩ := hnext ‹entry gathered _ = .ok _› h
        simp only [Nat.mul_add, Nat.mul_one, ‹first = true›, Bool.toNat_true] at hlength hpaid ⊢
        omega
      · have hlength := Nat.mul_le_mul_left price (length_of_skip ‹skip input = _›)
        have hcomma := Nat.mul_le_mul_left price (length_of_skip ‹skip (_ : Bytes) = _›)
        obtain ⟨hresult, hpaid⟩ := hnext ‹entry gathered _ = .ok _› h
        simp only [Nat.mul_add, Nat.mul_one] at hlength hcomma hpaid ⊢
        omega

-- What is written of a number is paid for by the bytes it is read from, a sign among them.
def PaysNumbers (price : Nat) (size : Number → Nat) : Prop :=
  ∀ {negative : Bool} {text rest : Bytes} {n : Number},
    readNumber negative text = .ok (n, rest) →
      size n + price * rest.length ≤ price * (text.length + negative.toNat)

theorem readWord_intake {word text rest : Bytes} (h : readWord word text = .ok rest) :
    text.length = word.length + rest.length := by
  induction word generalizing text with
  | nil =>
      cases h
      simp
  | cons w word ih =>
      cases text with
      | nil => contradiction
      | cons b text =>
          simp only [readWord] at h
          split at h
          · have hrest := ih h
            simp only [List.length_cons]
            omega
          · contradiction

theorem readColon_intake {text rest : Bytes} (h : readColon text = .ok rest) :
    rest.length + 1 ≤ text.length := by
  unfold readColon at h
  split at h
  · contradiction
  · next b more hskip =>
      split at h
      · cases h
        exact length_of_skip hskip
      · contradiction

theorem readMember_intake {factor : Nat} {size : Number → Nat} {value : Reader Json}
    (hfactor : factor ≤ price) (hprice : 1 ≤ price)
    (hvalue : ∀ {text v rest}, value text = .ok (v, rest) →
      extent factor size v + price * rest.length ≤ price * text.length)
    {gathered result : List (String × Json)} {text rest : Bytes}
    (h : readMember member value gathered text = .ok (result, rest)) :
    1 ≤ extentOfMembers factor size result ∧
      extentOfMembers factor size result + price * rest.length ≤
        extentOfMembers factor size gathered + price * text.length + 2 := by
  unfold readMember at h
  split at h
  · contradiction
  · next key behind htext =>
      split at h
      · contradiction
      · next after hcolon =>
          split at h
          · contradiction
          · next v last hread =>
              cases h
              have hkey := Nat.mul_le_mul_left price (readText_intake htext)
              have hcolon := Nat.mul_le_mul_left price (readColon_intake hcolon)
              have hpaid := hvalue hread
              have hfactor := Nat.mul_le_mul_right (weight quotedSize key.toList) hfactor
              have hmember : extentOfMembers factor size (member key v gathered) ≤
                  memberExtent factor size (key, v) + 1 + extentOfMembers factor size gathered :=
                extentOfMembers_member_le key v gathered
              simp only [memberExtent, Nat.mul_add, Nat.mul_one] at hkey hcolon hmember
              exact ⟨extentOfMembers_member_pos key v gathered, by omega⟩

-- A value takes no more than has been paid for the bytes it was read from, blanks included.
theorem extent_readValue {factor : Nat} {size : Number → Nat} (hfactor : factor ≤ price)
    (hprice : 1 ≤ price) (hnumbers : PaysNumbers price size) {nesting : Nat} {input rest : Bytes}
    {value : Json} (h : readValue nesting input = .ok (value, rest)) :
    extent factor size value + price * rest.length ≤ price * input.length := by
  unfold readValue at h
  induction nesting using Nat.strongRecOn generalizing input value rest with
  | ind nesting ih =>
      refine paid_of_le ?_ (length_skip_le input)
      have hbegun := begun_of_readValueWith h
      generalize skip input = begun at hbegun
      have hword : ∀ {word text : Bytes} (b : UInt8), readWord word text = .ok rest →
          word.length + 1 + price * rest.length ≤ price * (b :: text).length := by
        intro word text b hword
        have hletters := Nat.mul_le_mul_right word.length hprice
        rw [List.length_cons, readWord_intake hword]
        simp only [Nat.mul_add]
        omega
      cases hbegun with
      | null h => exact hword _ h
      | true h => exact hword _ h
      | false h => exact hword _ h
      | minus h => exact hnumbers h
      | digit h => exact hnumbers h
      | @text _ _ _ s h =>
          have htext := Nat.mul_le_mul_left price (readText_intake h)
          have hfactor := Nat.mul_le_mul_right (weight quotedSize s.toList) hfactor
          simp only [extent, List.length_cons, Nat.mul_add] at htext ⊢
          omega
      | array h =>
          have hitems := readItems_intake hprice (ih _ (Nat.lt_succ_self _)) h
          rw [← extentOfItems_eq_sum, Bool.toNat_true] at hitems
          simp only [extent, List.length_cons, Nat.mul_add]
          omega
      | object h =>
          have hmembers := readMembers_intake hprice
            (readMember_intake hfactor hprice (ih _ (Nat.lt_succ_self _))) h
          simp only [extent, extentOfMembers, List.length_cons, Nat.mul_add, Bool.toNat_true]
            at hmembers ⊢
          omega

theorem extent_parse {factor : Nat} {size : Number → Nat} (hfactor : factor ≤ price)
    (hprice : 1 ≤ price) (hnumbers : PaysNumbers price size) {text : Bytes} {value : Json}
    (h : parse text = .ok value) : extent factor size value ≤ price * text.length := by
  unfold parse complete at h
  split at h
  · contradiction
  · next v rest hread =>
      split at h
      · cases h
        have hpaid := extent_readValue hfactor hprice hnumbers hread
        omega
      · contradiction

end Priced

end RequestGuard.Json
