import RequestGuard.Proofs.Json.Literals
import RequestGuard.Proofs.Json.Nesting

namespace RequestGuard.Json

open Utf8 (encode)

theorem ne_of_isDigit {d b : UInt8} (hd : isDigit d = true) (hb : isDigit b = false) : d ≠ b := by
  rintro rfl
  exact absurd (hd.symm.trans hb) (by decide)

theorem isSpace_of_isDigit {d : UInt8} (h : isDigit d = true) : isSpace d = false := by
  simp [isSpace, ne_of_isDigit h (b := 0x20) (by decide), ne_of_isDigit h (b := 0x0A) (by decide),
    ne_of_isDigit h (b := 0x09) (by decide), ne_of_isDigit h (b := 0x0D) (by decide)]

-- The reader by what a value begins with.

section Value

variable {put : String → Json → List (String × Json) → List (String × Json)}
  {nesting inner : Nat} {rest after : Bytes}

theorem readValueWith_text {s : String} (h : readText rest = .ok (s, after)) :
    readValueWith put nesting (0x22 :: rest) = .ok (text s, after) := by
  unfold readValueWith
  simp [skip, isSpace, isDigit, h, Except.map]

theorem readValueWith_minus {n : Number} (h : readNumber true rest = .ok (n, after)) :
    readValueWith put nesting (0x2D :: rest) = .ok (number n, after) := by
  unfold readValueWith
  simp [skip, isSpace, h, Except.map]

theorem readValueWith_digit {d : UInt8} (hd : isDigit d = true) {n : Number}
    (h : readNumber false (d :: rest) = .ok (n, after)) :
    readValueWith put nesting (d :: rest) = .ok (number n, after) := by
  have hne : ∀ b, isDigit b = false → d ≠ b := fun b hb => ne_of_isDigit hd hb
  unfold readValueWith
  simp [skip, isSpace_of_isDigit hd, hne 0x6E (by decide), hne 0x74 (by decide),
    hne 0x66 (by decide), hne 0x2D (by decide), hd, h, Except.map]

theorem readValueWith_list {items : List Json}
    (h : readItems (readValueWith put inner) (rest.length + 1) true rest = .ok (items, after)) :
    readValueWith put (inner + 1) (0x5B :: rest) = .ok (array items, after) := by
  unfold readValueWith
  simp [skip, isSpace, isDigit, h]

theorem readValueWith_object {members : List (String × Json)}
    (h : readMembers (readMember put (readValueWith put inner)) (rest.length + 1) true [] rest =
      .ok (members, after)) :
    readValueWith put (inner + 1) (0x7B :: rest) = .ok (object members, after) := by
  unfold readValueWith
  simp [skip, isSpace, isDigit, h]

end Value

theorem endsNumber_cons {b : UInt8}
    (h : isDigit b = false ∧ b ≠ 0x2E ∧ isExponentMark b = false) (rest : Bytes) :
    EndsNumber (b :: rest) := by
  intro head hhead
  cases hhead
  exact h

-- What is written of a value begins with neither a blank nor the end of a list.
def Begins (bytes : Bytes) : Prop :=
  ∃ b rest, bytes = b :: rest ∧ isSpace b = false ∧ b ≠ 0x5D

theorem skip_append {bytes : Bytes} (h : Begins bytes) (rest : Bytes) :
    skip (bytes ++ rest) = bytes ++ rest := by
  obtain ⟨b, more, rfl, hspace, -⟩ := h
  simp [skip, hspace]

theorem skip_cons {b : UInt8} (h : isSpace b = false) (rest : Bytes) :
    skip (b :: rest) = b :: rest := by
  simp [skip, h]

-- What follows the first part: each other part behind a comma.
def others (parts : List Bytes) : Bytes :=
  parts.flatMap fun part => 0x2C :: part

theorem endsNumber_others (parts : List Bytes) {b : UInt8}
    (h : isDigit b = false ∧ b ≠ 0x2E ∧ isExponentMark b = false) (rest : Bytes) :
    EndsNumber (others parts ++ b :: rest) := by
  cases parts with
  | nil => exact endsNumber_cons h rest
  | cons part more => exact endsNumber_cons (by decide) _

theorem encode_separated (part : List Char) (parts : List (List Char)) :
    encode (separated (part :: parts)) = encode part ++ others (parts.map encode) := by
  induction parts generalizing part with
  | nil => simp [separated, others]
  | cons next rest ih =>
      rw [separated, Utf8.encode_append, Utf8.encode_cons, ih next]
      · rfl
      · simp

section Lists

variable {item : Reader α} {written : α → Bytes} {items : List α}

-- The length of what is written bounds the number of items.
theorem length_le_others (parts : List Bytes) : parts.length ≤ (others parts).length := by
  induction parts with
  | nil => exact Nat.zero_le _
  | cons part more ih =>
      simp only [others, List.flatMap_cons, List.cons_append, List.length_cons,
        List.length_append] at ih ⊢
      omega

theorem readItems_others
    (hitem : ∀ a ∈ items, ∀ rest, EndsNumber rest → item (written a ++ rest) = .ok (a, rest))
    (hbegins : ∀ a ∈ items, Begins (written a)) {fuel : Nat} (hfuel : items.length < fuel)
    (rest : Bytes) :
    readItems item fuel false (others (items.map written) ++ 0x5D :: rest) = .ok (items, rest) := by
  induction items generalizing fuel with
  | nil =>
      cases fuel with
      | zero => omega
      | succ fuel => simp [others, readItems, skip, isSpace]
  | cons a more ih =>
      obtain ⟨ha, hmore⟩ := List.forall_mem_cons.mp hitem
      obtain ⟨hbegin, hbegins⟩ := List.forall_mem_cons.mp hbegins
      cases fuel with
      | zero => omega
      | succ fuel =>
          have hread := ha _ (endsNumber_others (more.map written) (b := 0x5D) (by decide) rest)
          have hskip := skip_append hbegin (others (more.map written) ++ 0x5D :: rest)
          have hrest := ih hmore hbegins (Nat.lt_of_succ_lt_succ hfuel)
          have hhead : others ((a :: more).map written) ++ 0x5D :: rest =
              0x2C :: (written a ++ (others (more.map written) ++ 0x5D :: rest)) := by
            simp [others]
          obtain ⟨b, bytes, hbytes, -, hend⟩ := hbegin
          rw [hhead, readItems, skip_cons (by decide)]
          simp only [hskip]
          rw [hbytes, List.cons_append] at hread ⊢
          simp [hend, hread, hrest]

theorem readItems_written (written : α → Bytes) {first : α} {more : List α}
    (hitem : ∀ a ∈ first :: more, ∀ rest, EndsNumber rest →
      item (written a ++ rest) = .ok (a, rest))
    (hbegins : ∀ a ∈ first :: more, Begins (written a)) {fuel : Nat} (hfuel : more.length + 1 < fuel)
    (rest : Bytes) :
    readItems item fuel true (written first ++ others (more.map written) ++ 0x5D :: rest) =
      .ok (first :: more, rest) := by
  obtain ⟨hfirst, hmore⟩ := List.forall_mem_cons.mp hitem
  obtain ⟨hbegin, hbegins⟩ := List.forall_mem_cons.mp hbegins
  cases fuel with
  | zero => omega
  | succ fuel =>
      have hread := hfirst _ (endsNumber_others (more.map written) (b := 0x5D) (by decide) rest)
      have hskip := skip_append hbegin (others (more.map written) ++ 0x5D :: rest)
      have hrest := readItems_others hmore hbegins (Nat.lt_of_succ_lt_succ hfuel) rest
      obtain ⟨b, bytes, hbytes, -, hend⟩ := hbegin
      rw [List.append_assoc, readItems, hskip]
      rw [hbytes, List.cons_append] at hread ⊢
      simp [hend, hread, hrest]

end Lists

section Objects

variable {entry : σ → Reader σ} {written : α → Bytes} {add : σ → α → σ} {members : List α}

-- A member is written behind the quote that opens its key. It is read after those before it.
theorem readMembers_others (gathered : σ)
    (hentry : ∀ before a after, members = before ++ a :: after → ∀ rest, EndsNumber rest →
      entry (before.foldl add gathered) (written a ++ rest) =
        .ok (add (before.foldl add gathered) a, rest)) {fuel : Nat}
    (hfuel : members.length < fuel) (rest : Bytes) :
    readMembers entry fuel false gathered
      (others (members.map fun a => 0x22 :: written a) ++ 0x7D :: rest) =
        .ok (members.foldl add gathered, rest) := by
  induction members generalizing fuel gathered with
  | nil =>
      cases fuel with
      | zero => omega
      | succ fuel => simp [others, readMembers, skip, isSpace]
  | cons a more ih =>
      cases fuel with
      | zero => omega
      | succ fuel =>
          have hread := hentry [] a more rfl _
            (endsNumber_others (more.map fun a => 0x22 :: written a) (b := 0x7D) (by decide) rest)
          have hrest := ih (add gathered a)
            (fun before b after hsplit => hentry (a :: before) b after (congrArg (a :: ·) hsplit))
            (Nat.lt_of_succ_lt_succ hfuel)
          have hhead : others ((a :: more).map fun a => 0x22 :: written a) ++ 0x7D :: rest =
              0x2C :: 0x22 :: (written a ++
                (others (more.map fun a => 0x22 :: written a) ++ 0x7D :: rest)) := by
            simp [others]
          rw [List.foldl_nil] at hread
          rw [hhead, readMembers, skip_cons (by decide)]
          simp [skip_cons, isSpace, hread, hrest]

theorem readMembers_written (written : α → Bytes) (add : σ → α → σ) (gathered : σ) {first : α}
    {more : List α}
    (hentry : ∀ before a after, first :: more = before ++ a :: after → ∀ rest, EndsNumber rest →
      entry (before.foldl add gathered) (written a ++ rest) =
        .ok (add (before.foldl add gathered) a, rest)) {fuel : Nat}
    (hfuel : more.length + 1 < fuel) (rest : Bytes) :
    readMembers entry fuel true gathered
      (0x22 :: written first ++ others (more.map fun a => 0x22 :: written a) ++ 0x7D :: rest) =
        .ok ((first :: more).foldl add gathered, rest) := by
  cases fuel with
  | zero => omega
  | succ fuel =>
      have hread := hentry [] first more rfl _
        (endsNumber_others (more.map fun a => 0x22 :: written a) (b := 0x7D) (by decide) rest)
      have hrest := readMembers_others (add gathered first)
        (fun before b after hsplit =>
          hentry (first :: before) b after (congrArg (first :: ·) hsplit))
        (Nat.lt_of_succ_lt_succ hfuel) rest
      rw [List.foldl_nil] at hread
      rw [List.append_assoc, List.cons_append, readMembers, skip_cons (by decide)]
      simp [hread, hrest]

end Objects

-- Values in full.

theorem writeItems_eq_map (items : List Json) : writeItems items = items.map write := by
  induction items with
  | nil => rfl
  | cons item rest ih => rw [writeItems, ih, List.map_cons]

-- A member as it is written behind its opening quote.
def writtenMember (member : String × Json) : Bytes :=
  encode (member.1.toList.flatMap escape) ++ 0x22 :: 0x3A :: encode member.2.write

theorem encode_writeMembers (members : List (String × Json)) :
    (writeMembers members).map encode = members.map fun member => 0x22 :: writtenMember member := by
  induction members with
  | nil => rfl
  | cons member rest ih =>
      obtain ⟨key, value⟩ := member
      have hquote : String.utf8EncodeChar '"' = [0x22] := by decide
      have hcolon : String.utf8EncodeChar ':' = [0x3A] := by decide
      rw [writeMembers, List.map_cons, ih, List.map_cons]
      simp [writtenMember, writeText, Utf8.encode_cons, hquote, hcolon]

theorem encode_number {n : Int} (h : n < 0) :
    encode (Number.integer n).written.toList = 0x2D :: encode (Numeral.digits n.natAbs) := by
  have hminus : String.utf8EncodeChar '-' = [0x2D] := by decide
  simp only [Number.written, String.toList_ofList, if_pos h, Utf8.encode_cons, hminus,
    List.singleton_append]

theorem encode_natural {n : Int} (h : 0 ≤ n) :
    encode (Number.integer n).written.toList = encode (Numeral.digits n.natAbs) := by
  simp only [Number.written, String.toList_ofList, if_neg (Int.not_lt.mpr h)]

theorem wholeNumber_eq {n : Int} (h : IsWord64 n) :
    wholeNumber (n < 0) n.natAbs = .integer n := by
  obtain ⟨hlow, hhigh⟩ := h
  unfold wholeNumber
  by_cases hn : n < 0
  · have hfits : (n.natAbs != 0 && n.natAbs ≤ 0x8000000000000000) = true := by
      simp only [Bool.and_eq_true, bne_iff_ne, decide_eq_true_eq]
      omega
    have habs : -(n.natAbs : Int) = n := by omega
    simp only [hn, decide_true, Bool.not_true, Bool.false_eq_true, if_false, if_pos hfits, habs]
  · have habs : (n.natAbs : Int) = n := by omega
    simp only [hn, decide_false, Bool.not_false, if_true, habs]

-- The first digit of a number, as the reader meets it.
theorem encode_digits_cons (n : Nat) :
    ∃ d rest, encode (Numeral.digits n) = d :: rest ∧ isDigit d = true := by
  have hdigits := Numeral.digits_isDigit n
  obtain ⟨c, more, hcons⟩ := List.exists_cons_of_ne_nil (Numeral.digits_ne_nil n)
  rw [encode_digits hdigits, hcons]
  rw [hcons] at hdigits
  exact ⟨_, _, rfl, (digitByte_of_isDigit (hdigits c List.mem_cons_self)).2.1⟩

theorem readValueWith_number {put : String → Json → List (String × Json) → List (String × Json)}
    {n : Int} (h : IsWord64 n) (nesting : Nat) {rest : Bytes} (hrest : EndsNumber rest) :
    readValueWith put nesting (encode (Number.integer n).written.toList ++ rest) =
      .ok (number (.integer n), rest) := by
  have hfits : n.natAbs ≤ Numeral.maxWord := by
    obtain ⟨hlow, hhigh⟩ := h
    unfold Numeral.maxWord
    omega
  have hwhole := wholeNumber_eq h
  by_cases hn : n < 0
  · have hread := readNumber_digits true hfits hrest
    simp only [hn, decide_true] at hwhole
    rw [hwhole] at hread
    rw [encode_number hn, List.cons_append]
    exact readValueWith_minus hread
  · have hread := readNumber_digits false hfits hrest
    simp only [hn, decide_false] at hwhole
    rw [hwhole] at hread
    obtain ⟨d, more, hcons, hd⟩ := encode_digits_cons n.natAbs
    rw [encode_natural (Int.not_lt.mp hn)]
    rw [hcons, List.cons_append] at hread ⊢
    exact readValueWith_digit hd hread

theorem begins_of_isDigit {d : UInt8} (h : isDigit d = true) (rest : Bytes) :
    Begins (d :: rest) :=
  ⟨d, rest, rfl, isSpace_of_isDigit h, ne_of_isDigit h (by decide)⟩

theorem begins_write {value : Json} (h : WholeNumbers value) : Begins (encode value.write) := by
  have hascii : ∀ {c : Char} (rest : List Char), c.toNat < 0x80 →
      isSpace (UInt8.ofNat c.toNat) = false ∧ UInt8.ofNat c.toNat ≠ 0x5D →
      Begins (encode (c :: rest)) := by
    intro c rest hc hbyte
    rw [Utf8.encode_cons, Utf8.encodeChar_ascii hc]
    exact ⟨_, _, rfl, hbyte⟩
  cases value with
  | null => exact hascii _ (by decide) (by decide)
  | bool b => cases b <;> exact hascii _ (by decide) (by decide)
  | number n =>
      obtain ⟨i, rfl, -⟩ := h n ((isPart_leaf rfl).mpr rfl)
      rw [write]
      by_cases hi : i < 0
      · rw [encode_number hi]
        exact ⟨_, _, rfl, by decide, by decide⟩
      · obtain ⟨d, rest, hcons, hd⟩ := encode_digits_cons i.natAbs
        rw [encode_natural (Int.not_lt.mp hi), hcons]
        exact begins_of_isDigit hd rest
  | text s => exact hascii _ (by decide) (by decide)
  | array items => exact hascii _ (by decide) (by decide)
  | object members => exact hascii _ (by decide) (by decide)

theorem readMember_written
    {put : String → Json → List (String × Json) → List (String × Json)} {value : Reader Json}
    {member : String × Json} {rest : Bytes}
    (hvalue : value (encode member.2.write ++ rest) = .ok (member.2, rest))
    (gathered : List (String × Json)) :
    readMember put value gathered (writtenMember member ++ rest) =
      .ok (put member.1 member.2 gathered, rest) := by
  have hcolon : readColon (0x3A :: (encode member.2.write ++ rest)) =
      .ok (encode member.2.write ++ rest) := by
    simp [readColon, skip, isSpace]
  have htext := readText_writeText member.1 (0x3A :: (encode member.2.write ++ rest))
  rw [writtenMember, List.append_assoc, List.cons_append, List.cons_append]
  simp only [readMember, htext, hcolon, hvalue]

theorem encode_text (s : String) (rest : Bytes) :
    encode (text s).write ++ rest =
      0x22 :: (encode (s.toList.flatMap escape) ++ 0x22 :: rest) := by
  have hquote : String.utf8EncodeChar '"' = [0x22] := by decide
  have hclose : encode ['"'] = [0x22] := by decide
  rw [write, writeText, List.append_assoc, List.singleton_append, Utf8.encode_cons, hquote,
    Utf8.encode_append, hclose, List.singleton_append, List.cons_append, List.append_assoc,
    List.singleton_append]

-- A list of the items that are written is read back if each item is.
theorem readValueWith_array
    {put : String → Json → List (String × Json) → List (String × Json)} {inner : Nat}
    {items : List Json} (hnumbers : ∀ item ∈ items, WholeNumbers item)
    (hitems : ∀ item ∈ items, ∀ rest, EndsNumber rest →
      readValueWith put inner (encode item.write ++ rest) = .ok (item, rest)) (rest : Bytes) :
    readValueWith put (inner + 1) (encode (array items).write ++ rest) =
      .ok (array items, rest) := by
  have hopen : String.utf8EncodeChar '[' = [0x5B] := by decide
  have hclose : encode [']'] = [0x5D] := by decide
  rw [write, writeItems_eq_map, List.append_assoc, List.singleton_append, Utf8.encode_cons, hopen,
    Utf8.encode_append, hclose, List.singleton_append, List.cons_append]
  refine readValueWith_list ?_
  cases items with
  | nil => simp [separated, readItems, skip, isSpace]
  | cons first more =>
      have hlength := length_le_others (more.map fun item => encode item.write)
      rw [List.map_cons, encode_separated, List.map_map, List.append_assoc, List.singleton_append]
      refine readItems_written (fun item => encode item.write) hitems
        (fun item hitem => begins_write (hnumbers item hitem)) ?_ rest
      simp only [List.length_map, List.length_append, List.length_cons, Function.comp_def]
        at hlength ⊢
      omega

theorem encode_object (members : List (String × Json)) (rest : Bytes) :
    encode (object members).write ++ rest =
      0x7B :: (encode (separated (writeMembers members)) ++ 0x7D :: rest) := by
  have hopen : String.utf8EncodeChar '\x7b' = [0x7B] := by decide
  have hclose : encode ['\x7d'] = [0x7D] := by decide
  rw [write, List.append_assoc, List.singleton_append, Utf8.encode_cons, hopen,
    Utf8.encode_append, hclose, List.singleton_append, List.cons_append, List.append_assoc,
    List.singleton_append]

-- An object is gathered from its members in their order.
theorem readMembers_object {entry : σ → Reader σ} (member : α → String × Json)
    (add : σ → α → σ) (gathered : σ) {members : List α}
    (hentry : ∀ before a after, members = before ++ a :: after → ∀ rest, EndsNumber rest →
      entry (before.foldl add gathered) (writtenMember (member a) ++ rest) =
        .ok (add (before.foldl add gathered) a, rest)) (rest : Bytes) :
    let text := encode (separated (writeMembers (members.map member))) ++ 0x7D :: rest
    readMembers entry (text.length + 1) true gathered text =
      .ok (members.foldl add gathered, rest) := by
  cases members with
  | nil => simp [writeMembers, separated, readMembers, skip, isSpace]
  | cons first more =>
      have hparts := encode_writeMembers ((first :: more).map member)
      have hlength := length_le_others (more.map fun a => 0x22 :: writtenMember (member a))
      obtain ⟨part, parts, hcons⟩ :
          ∃ part parts, writeMembers ((first :: more).map member) = part :: parts := ⟨_, _, rfl⟩
      rw [hcons, List.map_cons, List.map_cons, List.map_cons, List.map_map, List.cons.injEq]
        at hparts
      rw [hcons, encode_separated, hparts.1, hparts.2]
      refine readMembers_written (fun a => writtenMember (member a)) add gathered hentry ?_ rest
      simp only [List.length_map, List.length_append, List.length_cons, Function.comp_def]
        at hlength ⊢
      omega

theorem readMembers_values (put : String → Json → List (String × Json) → List (String × Json))
    {value : Reader Json} {members : List (String × Json)}
    (hmembers : ∀ member ∈ members, ∀ rest, EndsNumber rest →
      value (encode member.2.write ++ rest) = .ok (member.2, rest)) (rest : Bytes) :
    let text := encode (separated (writeMembers members)) ++ 0x7D :: rest
    readMembers (readMember put value) (text.length + 1) true [] text =
      .ok (members.foldl (fun gathered member => put member.1 member.2 gathered) [], rest) := by
  have hmem : ∀ before member after, members = before ++ member :: after → member ∈ members :=
    fun before member after hsplit => hsplit ▸ List.mem_append_right before List.mem_cons_self
  have hread := readMembers_object id (fun gathered member => put member.1 member.2 gathered) []
    (fun before member after hsplit behind hbehind =>
      readMember_written (hmembers member (hmem _ _ _ hsplit) behind hbehind) _) rest
  rwa [List.map_id] at hread

theorem readValueWith_members
    {put : String → Json → List (String × Json) → List (String × Json)} {inner : Nat}
    {members : List (String × Json)}
    (hmembers : ∀ member ∈ members, ∀ rest, EndsNumber rest →
      readValueWith put inner (encode member.2.write ++ rest) = .ok (member.2, rest))
    (rest : Bytes) :
    readValueWith put (inner + 1) (encode (object members).write ++ rest) =
      .ok (object (members.foldl (fun gathered member => put member.1 member.2 gathered) []),
        rest) := by
  rw [encode_object]
  exact readValueWith_object (readMembers_values put hmembers rest)

theorem readValue_write {value : Json} (hcanonical : Canonical value)
    (hnumbers : WholeNumbers value) {nesting : Nat} (hnests : Nests nesting value) {rest : Bytes}
    (hrest : EndsNumber rest) :
    readValue nesting (encode value.write ++ rest) = .ok (value, rest) := by
  unfold readValue
  induction value generalizing nesting rest with
  | null =>
      have hword : encode ['n', 'u', 'l', 'l'] = 0x6E :: rull := by decide
      unfold readValueWith
      simp [write, hword, skip, isSpace, constant, readWord, rull, Except.map]
  | bool b =>
      cases b with
      | true =>
          have hword : encode ['t', 'r', 'u', 'e'] = 0x74 :: rrue := by decide
          unfold readValueWith
          simp [write, hword, skip, isSpace, constant, readWord, rrue, Except.map]
      | false =>
          have hword : encode ['f', 'a', 'l', 's', 'e'] = 0x66 :: ralse := by decide
          unfold readValueWith
          simp [write, hword, skip, isSpace, constant, readWord, ralse, Except.map]
  | number n =>
      obtain ⟨i, rfl, hword⟩ := hnumbers n ((isPart_leaf rfl).mpr rfl)
      exact readValueWith_number hword nesting hrest
  | text s =>
      rw [encode_text]
      exact readValueWith_text (readText_writeText s rest)
  | array items ih =>
      cases hcanonical with
      | array hitems =>
          obtain ⟨inner, rfl, hinner⟩ := nests_array.mp hnests
          exact readValueWith_array hnumbers.item (fun item hitem behind hbehind =>
            ih item hitem (hitems item hitem) (hnumbers.item item hitem) (hinner item hitem)
              hbehind) rest
  | object members ih =>
      cases hcanonical with
      | object hkeys hvalues =>
          obtain ⟨inner, rfl, hinner⟩ := nests_object.mp hnests
          have hgathered : members.foldl (fun gathered pair => member pair.1 pair.2 gathered) [] =
              members := gathered_of_ascending (show Ascending ([] ++ members) from hkeys)
          have hread : readValueWith member (inner + 1) (encode (object members).write ++ rest) = _ :=
            readValueWith_members (fun pair hpair behind hbehind =>
              ih pair hpair (hvalues pair hpair) (hnumbers.member pair hpair) (hinner pair hpair)
                hbehind) rest
          rwa [hgathered] at hread

-- What is written of a value is read back as that value.
theorem parse_written {value : Json} (hcanonical : Canonical value)
    (hnumbers : WholeNumbers value) (hnests : Nests nestingLimit value) :
    parse (bytesOf value.written) = .ok value := by
  have hend : EndsNumber [] := fun b hb => absurd hb (by simp)
  have hread := readValue_write hcanonical hnumbers hnests hend
  rw [List.append_nil] at hread
  rw [written, Utf8.bytesOf_ofList]
  simp only [parse, complete, hread, skip, List.dropWhile_nil]

end RequestGuard.Json
