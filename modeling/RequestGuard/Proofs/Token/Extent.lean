import RequestGuard.Proofs.Json.RecordIntake
import RequestGuard.Proofs.Token.Acceptance

namespace RequestGuard

namespace Base64

theorem length_of_readLetters {offset : Nat} {text : Bytes} {letters : List Nat}
    (h : readLetters offset text = .ok letters) : letters.length = text.length := by
  induction text generalizing offset letters with
  | nil =>
      cases h
      rfl
  | cons b rest ih =>
      rw [readLetters] at h
      split at h
      · contradiction
      · obtain ⟨more, hmore, rfl⟩ := Json.map_eq_ok h
        rw [List.length_cons, List.length_cons, ih hmore]

-- Fill characters are no letters.
theorem length_of_readLast {start index : Nat} {pad : Option Nat} {text : Bytes}
    {letters : List Nat} {padded : Bool}
    (h : readLast start index pad text = .ok (letters, padded)) :
    letters.length ≤ text.length := by
  induction text generalizing index pad letters padded with
  | nil =>
      cases h
      exact Nat.le_refl _
  | cons b rest ih =>
      simp only [readLast] at h
      split at h
      · split at h
        · contradiction
        · exact Nat.le_succ_of_le (ih h)
      · split at h
        · contradiction
        · contradiction
        · obtain ⟨⟨more, last⟩, hmore, ⟨⟩⟩ := Json.map_eq_ok h
          exact Nat.succ_le_succ (ih hmore)

theorem length_groups_le (letters : List Nat) : (groups letters).length ≤ letters.length := by
  fun_induction groups letters with
  | case1 a b c d rest ih =>
      simp only [List.length_cons]
      omega
  | case2 a b c => simp
  | case3 a b => simp
  | case4 letters => exact Nat.zero_le _

theorem length_of_decode {text result : Bytes} (h : decode text = .ok result) :
    result.length ≤ text.length := by
  obtain ⟨whole, last, padded, hwhole, hlast, rfl⟩ := decode_eq_ok h
  have hletters := length_of_readLetters hwhole
  have hmore := length_of_readLast hlast
  have hgroups := length_groups_le (whole ++ last)
  rw [List.length_append] at hgroups
  rw [List.length_take] at hletters
  rw [List.length_drop] at hmore
  omega

end Base64

theorem dot_notMem_hexText (bytes : Bytes) : '.' ∉ (hexText bytes).toList := by
  have hdigit : ∀ n < 16, Text.hexDigit n ≠ '.' := by decide
  rw [hexText, String.toList_ofList, List.mem_flatMap]
  rintro ⟨b, -, hmem⟩
  have hb := b.toNat_lt
  simp only [List.mem_cons, List.not_mem_nil, or_false] at hmem
  rcases hmem with hhigh | hlow
  · exact hdigit (b.toNat / 16) (by omega) hhigh.symm
  · exact hdigit (b.toNat % 16) (by omega) hlow.symm

-- A fingerprint is never taken for a token.
theorem Console.isToken_hexText (bytes : Bytes) : isToken (hexText bytes) = false := by
  simp [isToken, List.count_eq_zero.mpr (dot_notMem_hexText bytes)]

namespace Credential

variable {secret token : String} {payload : Bytes} {claims : Claims} {check : Expiry}

theorem of_mapError_ok {α ε φ : Type} {x : Except ε α} {f : ε → φ} {a : α}
    (h : x.mapError f = .ok a) : x = .ok a := by
  cases x with
  | error fault => contradiction
  | ok b => exact congrArg Except.ok (Except.ok.inj h)

-- The payload stands between two dots.
theorem length_of_signed (h : Signed secret token payload) :
    payload.length < (bytesOf token).length := by
  cases h with
  | parts htoken hheader hpart =>
      have hpayload := Base64.length_of_decode (of_mapError_ok hpart)
      rw [htoken]
      simp only [List.length_append, List.length_cons]
      omega

-- A record of claims has texts, words and flags only, and what is missing is no text.
theorem claims_intake {record : Json} (h : readPart Claims.schema.read payload = .ok record) :
    ∃ members, record = .object members ∧
      ∀ member ∈ members, Json.textSize member.2 ≤ payload.length := by
  refine Json.complete_record_intake ?_ ?_ (of_mapError_ok h)
  · simp only [Json.readers, Json.Schema.read, List.forall_mem_cons, List.not_mem_nil,
      false_implies, implies_true, and_true]
    exact ⟨Json.spends_text, Json.spends_word, Json.spends_optional Json.spends_word,
      Json.spends_optional Json.spends_text, Json.spends_optional Json.spends_text,
      Json.spends_optional Json.spends_flag⟩
  · simp [Json.StandInsAreNoTexts, Json.readers, Json.Presence.standIn, Json.textSize]

theorem id_of_record {record : Json} (h : Claims.ofRecord record = some claims) :
    claims.id = (record.get? "jti").bind Claims.text? := by
  simp only [Claims.ofRecord, Option.bind_eq_bind, Option.bind_eq_some_iff] at h
  obtain ⟨subject, -, expiry, -, ⟨⟩⟩ := h
  rfl

theorem length_of_says {expiry : Nat} {id : String} (h : Says payload claims expiry)
    (hid : claims.id = some id) : (bytesOf id).length ≤ payload.length := by
  obtain ⟨hrecord, hclaims, -, -, -⟩ := h
  obtain ⟨members, rfl, hsizes⟩ := claims_intake hrecord
  rw [id_of_record hclaims] at hid
  obtain ⟨value, hvalue, htext⟩ := Option.bind_eq_some_iff.mp hid
  have hsize := hsizes _ (Json.mem_of_lookup hvalue)
  cases value with
  | text s =>
      cases htext
      exact hsize
  | _ => contradiction

-- A token is longer than all that it says, so none is its own id. Nor is it a fingerprint, which
-- has no dots.
theorem idOf_ne_self (h : read secret check token = .ok claims) : idOf token claims ≠ token := by
  obtain ⟨payload, expiry, hsigned, hsays, -⟩ := read_eq_ok_iff.mp h
  have hnames : Verifier.Names token claims (idOf token claims) := Verifier.names_iff.mpr rfl
  generalize idOf token claims = id at hnames
  intro hself
  cases hnames with
  | given hid hne =>
      have hlong := length_of_signed hsigned
      have hshort := length_of_says hsays hid
      rw [← hself] at hlong
      omega
  | fingerprint hnone =>
      have htoken := isToken_of_verified (verified_eq_ok_iff.mpr hsigned)
      rw [← hself, Console.isToken_hexText] at htoken
      contradiction

end Credential

end RequestGuard
