import RequestGuard.Proofs.Json.NumberIntake
import RequestGuard.Proofs.Json.Records
import RequestGuard.Proofs.Json.SkipIntake

namespace RequestGuard.Json

variable {text input rest : Bytes} {value : Json} {seen members : List (String × Json)}
  {fields : List Field} {name : String}

theorem one_le_quotedByteSize (b : UInt8) : 1 ≤ quotedByteSize b := by
  have hall : ∀ n < 256, 1 ≤ quotedByteSize (UInt8.ofNat n) := by
    decide +kernel
  have hb := hall b.toNat b.toNat_lt
  rwa [UInt8.ofNat_toNat] at hb

theorem length_le_quotedBytesSize (bytes : Bytes) : bytes.length ≤ quotedBytesSize bytes := by
  induction bytes with
  | nil => exact Nat.le_refl _
  | cons b rest ih =>
      have hb := one_le_quotedByteSize b
      rw [List.length_cons, quotedBytesSize_cons]
      omega

-- A text has come out of no fewer bytes than it has, and a closing quote.
theorem length_bytesOf_of_readText {s : String} (h : readText text = .ok (s, rest)) :
    (bytesOf s).length + rest.length + 1 ≤ text.length := by
  have hbytes := length_le_quotedBytesSize (bytesOf s)
  have hintake := readText_intake h
  rw [quotedBytesSize_bytesOf] at hbytes
  omega

-- The bytes of a field that is a text. What is read of other fields is of no account here.
def textSize : Json → Nat
  | .text s => (bytesOf s).length
  | _ => 0

def textSizes (members : List (String × Json)) : Nat :=
  (members.map fun member => textSize member.2).sum

theorem textSizes_append (members : List (String × Json)) (key : String) (value : Json) :
    textSizes (members ++ [(key, value)]) = textSizes members + textSize value := by
  simp [textSizes]

-- What is read of a field and what is left behind it are no more than there was.
def Spends (read : Reader Json) : Prop :=
  ∀ {text value rest}, read text = .ok (value, rest) →
    textSize value + rest.length ≤ text.length

theorem spends_text : Spends readTextField := by
  intro text value rest h
  unfold readTextField at h
  split at h
  · next after hskip =>
      obtain ⟨⟨s, behind⟩, hread, ⟨⟩⟩ := map_eq_ok h
      have hlength := length_of_skip hskip
      have htext := length_bytesOf_of_readText hread
      rw [textSize]
      omega
  · contradiction

theorem spends_word : Spends readWordField := by
  intro text value rest h
  -- a minus counts as a byte that the number is read from
  have hnumber : ∀ {negative : Bool} {input : Bytes} {n : Number},
      readNumber negative input = .ok (n, rest) → wordOf n = .ok value →
      input.length + negative.toNat ≤ text.length →
      textSize value + rest.length ≤ text.length := by
    intro negative input n hread hword hinput
    obtain ⟨taken, htaken, -⟩ := readNumber_intake hread
    obtain ⟨m, -, rfl⟩ := exists_of_wordOf hread hword
    have hnone : textSize (nat m) = 0 := rfl
    omega
  unfold readWordField at h
  dsimp only at h
  split at h
  · contradiction
  · next b more hskip =>
      have hlength := length_of_skip hskip
      repeat' split at h
      all_goals try contradiction
      · cases h
        exact hnumber ‹readNumber true _ = .ok _› ‹wordOf _ = .ok _› hlength
      · cases h
        exact hnumber ‹readNumber false _ = .ok _› ‹wordOf _ = .ok _› hlength

theorem spent_of_constant {b : UInt8} {word after : Bytes} {given : Json}
    (hgiven : textSize given = 0) (hskip : skip text = b :: after)
    (h : constant given word after = .ok (value, rest)) :
    textSize value + rest.length ≤ text.length := by
  obtain ⟨behind, hword, ⟨⟩⟩ := map_eq_ok h
  have hlength := length_of_skip hskip
  have hrest := length_of_readWord hword
  omega

theorem spends_flag : Spends readFlagField := by
  intro text value rest h
  unfold readFlagField at h
  split at h
  · next hskip => exact spent_of_constant rfl hskip h
  · next hskip => exact spent_of_constant rfl hskip h
  · contradiction

theorem spends_optional {inner : Reader Json} (hinner : Spends inner) :
    Spends (readOptional inner) := by
  intro text value rest h
  unfold readOptional at h
  split at h
  · next hskip => exact spent_of_constant rfl hskip h
  · exact hinner h

-- A record by its names

-- What has been paid for the fields that have been seen, and one more.
def paidFor (seen : List (String × Json)) : Nat :=
  textSizes seen + 1

theorem readEntry_intake (hfields : ∀ field ∈ fields, Spends field.read)
    (h : readEntry fields seen text = .ok (members, rest)) :
    textSizes members + rest.length ≤ textSizes seen + text.length := by
  unfold readEntry at h
  split at h
  · contradiction
  · next key behind hkey =>
      have hquote := length_bytesOf_of_readText hkey
      split at h
      · split at h
        · contradiction
        · next after hcolon =>
            obtain ⟨last, hskip, ⟨⟩⟩ := map_eq_ok h
            have hlength := readColon_intake hcolon
            have hskipped := length_of_skipValue hskip
            omega
      · next field hfield =>
          split at h
          · contradiction
          · split at h
            · contradiction
            · next after hcolon =>
                obtain ⟨⟨v, last⟩, hread, ⟨⟩⟩ := map_eq_ok h
                have hlength := readColon_intake hcolon
                have hspent := hfields field (List.mem_of_find?_eq_some hfield) hread
                rw [textSizes_append]
                omega

theorem mem_of_gather (h : gather seen fields = .ok members) :
    ∀ member ∈ members, member ∈ seen ∨
      ∃ field ∈ fields, field.presence.standIn = some member.2 := by
  induction fields generalizing members with
  | nil =>
      cases h
      exact List.forall_mem_nil _
  | cons field more ih =>
      have hmore : ∀ {others}, gather seen more = .ok others → ∀ member ∈ others,
          member ∈ seen ∨ ∃ other ∈ field :: more, other.presence.standIn = some member.2 :=
        fun hothers member hmember => (ih hothers member hmember).imp_right
          fun ⟨other, hother, hstands⟩ => ⟨other, List.mem_cons_of_mem _ hother, hstands⟩
      have hstandIn : ∀ {v : Json}, field.presence.standIn = some v →
          (field.name, v) ∈ seen ∨
            ∃ other ∈ field :: more, other.presence.standIn = some v :=
        fun hstands => .inr ⟨field, List.mem_cons_self, hstands⟩
      rw [gather] at h
      split at h
      · next v hlookup =>
          obtain ⟨others, hothers, rfl⟩ := map_eq_ok h
          exact List.forall_mem_cons.mpr ⟨.inl (mem_of_lookup hlookup), hmore hothers⟩
      · contradiction
      · next hpresence =>
          obtain ⟨others, hothers, rfl⟩ := map_eq_ok h
          exact List.forall_mem_cons.mpr ⟨hstandIn (by rw [hpresence, Presence.standIn]),
            hmore hothers⟩
      · next v _ hpresence =>
          obtain ⟨others, hothers, rfl⟩ := map_eq_ok h
          exact List.forall_mem_cons.mpr ⟨hstandIn (by rw [hpresence, Presence.standIn]),
            hmore hothers⟩

-- What stands for a field that is not given is no text.
def StandInsAreNoTexts (fields : List Field) : Prop :=
  ∀ field ∈ fields, ∀ value, field.presence.standIn = some value → textSize value = 0

theorem readNamed_intake (hfields : ∀ field ∈ fields, Spends field.read)
    (hstands : StandInsAreNoTexts fields) (h : readNamed fields input = .ok (value, rest)) :
    ∃ members, value = object members ∧ ∀ member ∈ members, textSize member.2 ≤ input.length := by
  unfold readNamed at h
  split at h
  · contradiction
  · next seen after hread =>
      split at h
      · contradiction
      · next members hgather =>
          cases h
          refine ⟨members, rfl, fun member hmember => ?_⟩
          have hseen : textSizes seen ≤ input.length := by
            have hpaid : paidFor seen - Bool.toNat true + 1 + 1 * rest.length ≤
                paidFor [] + 1 * input.length := by
              refine readMembers_intake (Nat.le_refl 1) (fun hentry => ?_) hread
              have hspent := readEntry_intake hfields hentry
              unfold paidFor
              omega
            have hnone : paidFor [] = 1 := rfl
            rw [Bool.toNat_true, paidFor, hnone] at hpaid
            omega
          rcases mem_of_gather hgather member hmember with hgiven | ⟨field, hfield, hstand⟩
          · have hsize : textSize member.2 ≤ textSizes seen :=
              List.single_le_sum (fun _ _ => Nat.zero_le _) _ (List.mem_map_of_mem hgiven)
            omega
          · rw [hstands field hfield _ hstand]
            exact Nat.zero_le _

-- A record as a list

theorem readListed_intake {expected : String} {index : Nat}
    (hfields : ∀ field ∈ fields, Spends field.read) (hstands : StandInsAreNoTexts fields)
    (h : readListed expected index fields input = .ok (members, rest)) :
    ∀ member ∈ members, textSize member.2 ≤ input.length := by
  induction fields generalizing index input members with
  | nil =>
      obtain ⟨last, -, ⟨⟩⟩ := map_eq_ok h
      exact List.forall_mem_nil _
  | cons field more ih =>
      obtain ⟨hfield, hmore⟩ := List.forall_mem_cons.mp hfields
      obtain ⟨hstand, hothers⟩ := List.forall_mem_cons.mp hstands
      -- an item is read from what is left, and the others from what it leaves
      have hitem : ∀ {text value after}, text.length ≤ input.length →
          field.read text = .ok (value, after) →
          ((readListed expected (index + 1) more after).map
            fun found => ((field.name, value) :: found.1, found.2)) = .ok (members, rest) →
          ∀ member ∈ members, textSize member.2 ≤ input.length := by
        intro text value after htext hread hlisted
        obtain ⟨⟨others, last⟩, hrest, ⟨⟩⟩ := map_eq_ok hlisted
        have hspent := hfield hread
        refine List.forall_mem_cons.mpr ⟨by dsimp only; omega, fun member hmember => ?_⟩
        have hlater := ih hmore hothers hrest member hmember
        omega
      unfold readListed at h
      dsimp only at h
      repeat' split at h
      all_goals try contradiction
      · next value hpresence =>
          obtain ⟨⟨others, last⟩, hrest, ⟨⟩⟩ := map_eq_ok h
          refine List.forall_mem_cons.mpr ⟨?_, ih hmore hothers hrest⟩
          rw [hstand value (by rw [hpresence, Presence.standIn])]
          exact Nat.zero_le _
      · have hlength := length_of_skip ‹skip input = _›
        refine hitem ?_ ‹field.read _ = .ok _› h
        rw [List.length_cons]
        exact hlength
      · have hlength := length_of_skip ‹skip input = _›
        have hcomma := length_of_skip ‹skip (_ : Bytes) = _›
        refine hitem ?_ ‹field.read _ = .ok _› h
        rw [List.length_cons]
        omega

-- Given by names or as a list, no text of a record is longer than what the record was read from.
theorem readRecord_intake (hfields : ∀ field ∈ fields, Spends field.read)
    (hstands : StandInsAreNoTexts fields) (h : readRecord name fields input = .ok (value, rest)) :
    ∃ members, value = object members ∧ ∀ member ∈ members, textSize member.2 ≤ input.length := by
  unfold readRecord at h
  split at h
  · contradiction
  · next b more hskip =>
      have hlength := length_of_skip hskip
      have hwithin : ∀ {members : List (String × Json)},
          (∀ member ∈ members, textSize member.2 ≤ more.length) →
          ∀ member ∈ members, textSize member.2 ≤ input.length :=
        fun hsizes member hmember => (hsizes member hmember).trans (Nat.le_of_succ_le hlength)
      split_ifs at h with hlist hnames
      · obtain ⟨⟨members, after⟩, hlisted, ⟨⟩⟩ := map_eq_ok h
        exact ⟨members, rfl, hwithin (readListed_intake hfields hstands hlisted)⟩
      · obtain ⟨members, hvalue, hsizes⟩ := readNamed_intake hfields hstands h
        exact ⟨members, hvalue, hwithin hsizes⟩

theorem complete_record_intake (hfields : ∀ field ∈ fields, Spends field.read)
    (hstands : StandInsAreNoTexts fields) (h : complete (readRecord name fields) text = .ok value) :
    ∃ members, value = object members ∧ ∀ member ∈ members, textSize member.2 ≤ text.length := by
  unfold complete at h
  split at h
  · contradiction
  · next found after hread =>
      split at h
      · cases h
        exact readRecord_intake hfields hstands hread
      · contradiction

end RequestGuard.Json
