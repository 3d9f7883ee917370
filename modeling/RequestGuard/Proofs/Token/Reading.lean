import RequestGuard.Console.Target
import RequestGuard.Proofs.Text.Utf8
import Mathlib.Data.List.TakeWhile

namespace RequestGuard

namespace Utf8

theorem count_encodeChar {d : Char} (hd : d.toNat < 0x80) (c : Char) :
    (String.utf8EncodeChar c).count (UInt8.ofNat d.toNat) = if c = d then 1 else 0 := by
  by_cases hc : c.toNat < 0x80
  · have hbyte : UInt8.ofNat c.toNat = UInt8.ofNat d.toNat ↔ c = d := by
      rw [← UInt8.toNat_inj, toNat_byte (by omega), toNat_byte (by omega), Char.toNat_inj]
    rw [encodeChar_ascii hc, List.count_singleton]
    simp [hbyte]
  · have hne : c ≠ d := fun h => hc (h ▸ hd)
    rw [if_neg hne, List.count_eq_zero]
    intro hmem
    have hle := le_of_mem_encodeChar (Nat.le_of_not_lt hc) _ hmem
    rw [toNat_byte (by omega)] at hle
    omega

-- Characters of ASCII are counted in the bytes of a text as in the text.
theorem count_bytesOf {d : Char} (hd : d.toNat < 0x80) (s : String) :
    (bytesOf s).count (UInt8.ofNat d.toNat) = s.toList.count d := by
  unfold bytesOf
  induction s.toList with
  | nil => rfl
  | cons c rest ih =>
      rw [List.flatMap_cons, List.count_append, ih, count_encodeChar hd, List.count_cons,
        Nat.add_comm]
      simp

end Utf8

namespace Base64

theorem readLetters_ok {offset : Nat} {text : Bytes} {letters : List Nat}
    (h : readLetters offset text = .ok letters) : ∀ b ∈ text, (value b).isSome = true := by
  induction text generalizing offset letters with
  | nil => exact List.forall_mem_nil _
  | cons b rest ih =>
      simp only [readLetters] at h
      split at h
      · contradiction
      · next n hvalue =>
          cases hrest : readLetters (offset + 1) rest with
          | error fault => rw [hrest] at h; contradiction
          | ok more => exact List.forall_mem_cons.mpr ⟨by simp [hvalue], ih hrest⟩

theorem readLast_ok {start index : Nat} {pad : Option Nat} {text : Bytes}
    {result : List Nat × Bool} (h : readLast start index pad text = .ok result) :
    ∀ b ∈ text, isPad b = true ∨ (value b).isSome = true := by
  induction text generalizing index pad result with
  | nil => exact List.forall_mem_nil _
  | cons b rest ih =>
      simp only [readLast] at h
      split at h
      · next hpad =>
          split at h
          · contradiction
          · exact List.forall_mem_cons.mpr ⟨.inl hpad, ih h⟩
      · split at h
        · contradiction
        · contradiction
        · next n hvalue =>
            cases hrest : readLast start (index + 1) none rest with
            | error fault => rw [hrest] at h; contradiction
            | ok more => exact List.forall_mem_cons.mpr ⟨.inr (by simp [hvalue]), ih hrest⟩

-- The letters are read in two parts, and the bytes are those of all of them.
theorem decode_eq_ok {text result : Bytes} (h : decode text = .ok result) :
    let start := text.length - lastGroupLength text.length
    ∃ whole last padded, readLetters 0 (text.take start) = .ok whole ∧
      readLast start 0 none (text.drop start) = .ok (last, padded) ∧
      result = groups (whole ++ last) := by
  intro start
  cases hwhole : readLetters 0 (text.take start) with
  | error fault =>
      simp only [decode, bind, Except.bind, start] at h hwhole
      rw [hwhole] at h
      repeat' split at h
      all_goals contradiction
  | ok whole =>
      cases hlast : readLast start 0 none (text.drop start) with
      | error fault =>
          simp only [decode, bind, Except.bind, start] at h hwhole hlast
          rw [hwhole, hlast] at h
          repeat' split at h
          all_goals contradiction
      | ok found =>
          obtain ⟨last, padded⟩ := found
          refine ⟨whole, last, padded, rfl, rfl, ?_⟩
          simp only [start] at hwhole hlast
          simp only [decode, bind, Except.bind, hwhole, hlast] at h
          repeat' split at h
          all_goals try contradiction
          all_goals exact (Except.ok.inj h).symm

-- All that is read is a letter or a fill character.
theorem decode_ok {text result : Bytes} (h : decode text = .ok result) :
    ∀ b ∈ text, isPad b = true ∨ (value b).isSome = true := by
  obtain ⟨whole, last, padded, hwhole, hlast, -⟩ := decode_eq_ok h
  rw [← List.take_append_drop (text.length - lastGroupLength text.length) text]
  exact List.forall_mem_append.mpr
    ⟨fun b hb => .inr (readLetters_ok hwhole b hb), readLast_ok hlast⟩

end Base64

namespace Credential

variable {secret token : String} {check : Expiry} {claims : Claims}

theorem splitLast_eq_some {text before after : Bytes} (h : splitLast text = some (before, after)) :
    text = before ++ 0x2E :: after ∧ (0x2E : UInt8) ∉ after := by
  simp only [splitLast] at h
  split at h
  · next hdot =>
      cases h
      have hsplit := List.takeWhile_append_dropWhile (p := (· != 0x2E)) (l := text.reverse)
      have hback : text.reverse.dropWhile (· != 0x2E) =
          0x2E :: (text.reverse.dropWhile (· != 0x2E)).drop 1 := by
        cases hdrop : text.reverse.dropWhile (· != 0x2E) with
        | nil =>
            rw [List.dropWhile_eq_nil_iff] at hdrop
            have hnone := hdrop 0x2E (by simpa using hdot)
            simp at hnone
        | cons b rest =>
            have hfirst := List.head?_dropWhile_not (· != 0x2E) text.reverse
            simp [hdrop] at hfirst
            simp [hfirst]
      constructor
      · rw [hback] at hsplit
        have hreversed := congrArg List.reverse hsplit
        rw [List.reverse_reverse, List.reverse_append, List.reverse_cons, List.append_assoc,
          List.singleton_append] at hreversed
        exact hreversed.symm
      · intro hmem
        have hneq := List.mem_takeWhile_imp (List.mem_reverse.mp hmem)
        simp at hneq
  · contradiction

theorem read_ok (h : read secret check token = .ok claims) :
    (∃ payload, verified secret token = .ok payload) ∧
    ∃ expiry, check.check expiry = .ok () ∧
      ∀ other, read secret other token = (other.check expiry).map fun _ => claims := by
  unfold read at h ⊢
  simp only [bind, Except.bind] at h ⊢
  cases hpayload : verified secret token with
  | error fault => simp [hpayload] at h
  | ok payload =>
      simp only [hpayload] at h ⊢
      cases hrecord : readPart Claims.schema.read payload with
      | error fault => simp [hrecord] at h
      | ok record =>
          simp only [hrecord] at h ⊢
          cases hclaims : Claims.ofRecord record with
          | none => simp [hclaims] at h
          | some found =>
              simp only [hclaims] at h ⊢
              split at h
              · contradiction
              · split at h
                · next registered _ _ expiry _ =>
                    cases hcheck : check.check expiry with
                    | error fault => simp [hcheck] at h
                    | ok _ =>
                        simp only [hcheck] at h
                        split at h
                        · contradiction
                        · next haudience =>
                            cases h
                            refine ⟨⟨_, rfl⟩, expiry, hcheck, fun other => ?_⟩
                            simp only [haudience]
                            cases other.check expiry <;> rfl
                · contradiction

theorem readHeader_ok {part : Bytes} {algorithm : String} (h : readHeader part = .ok algorithm) :
    ∃ header, decodePart part = .ok header := by
  cases hpart : decodePart part with
  | ok header => exact ⟨header, rfl⟩
  | error fault => simp [readHeader, hpart, bind, Except.bind] at h

theorem dot_notMem_of_decodePart {part result : Bytes} (h : decodePart part = .ok result) :
    (0x2E : UInt8) ∉ part := by
  intro hmem
  cases hdecode : Base64.decode part with
  | error fault => simp [decodePart, hdecode, Except.mapError] at h
  | ok bytes => exact absurd (Base64.decode_ok hdecode _ hmem) (by decide)

theorem verified_ok {payload : Bytes} (h : verified secret token = .ok payload) :
    ∃ message signature header part algorithm,
      splitLast (bytesOf token) = some (message, signature) ∧
        splitLast message = some (header, part) ∧ readHeader header = .ok algorithm := by
  simp only [verified, bind, Except.bind] at h
  split at h
  · next message signature hlast =>
      split at h
      · next header part hfirst =>
          cases hheader : readHeader header with
          | error fault => simp [hheader] at h
          | ok algorithm =>
              exact ⟨message, signature, header, part, algorithm, hlast, hfirst, hheader⟩
      · contradiction
  · contradiction

-- A token that can be read has three parts, and no dot is in one of them.
theorem isToken_of_verified {payload : Bytes} (h : verified secret token = .ok payload) :
    Console.isToken token = true := by
  obtain ⟨message, signature, header, part, algorithm, hlast, hfirst, hheader⟩ := verified_ok h
  obtain ⟨hmessage, hsignature⟩ := splitLast_eq_some hlast
  obtain ⟨hparts, hpart⟩ := splitLast_eq_some hfirst
  obtain ⟨_, hdecoded⟩ := readHeader_ok hheader
  have hcount : (bytesOf token).count 0x2E = 2 := by
    rw [hmessage, hparts]
    simp [List.count_append, List.count_eq_zero.mpr hsignature, List.count_eq_zero.mpr hpart,
      List.count_eq_zero.mpr (dot_notMem_of_decodePart hdecoded)]
  have hdots : (bytesOf token).count 0x2E = token.toList.count '.' :=
    Utf8.count_bytesOf (d := '.') (by decide) token
  simp [Console.isToken, ← hdots, hcount]

-- A token that is good at some time is good whenever no more of its life has passed.
theorem read_earlier {now leeway before tolerance : Nat}
    (h : read secret (.checked now leeway) token = .ok claims) (htolerance : tolerance ≤ before)
    (hearlier : before - tolerance ≤ now - leeway) :
    read secret (.checked before tolerance) token = .ok claims := by
  obtain ⟨-, expiry, hcheck, hread⟩ := read_ok h
  have hfresh : now - leeway ≤ expiry := by
    simp only [Expiry.check] at hcheck
    split at hcheck
    · contradiction
    · split at hcheck
      · contradiction
      · omega
  rw [hread, Expiry.check, if_neg (by omega), if_neg (by omega)]
  rfl

theorem read_ignored (h : read secret check token = .ok claims) :
    read secret .ignored token = .ok claims := by
  obtain ⟨-, expiry, -, hread⟩ := read_ok h
  rw [hread]
  rfl

theorem read_of_toOption (h : (read secret check token).toOption = some claims) :
    read secret check token = .ok claims := by
  cases hread : read secret check token with
  | error fault => simp [hread, Except.toOption] at h
  | ok found => simpa [hread, Except.toOption] using h

end Credential

end RequestGuard
