import RequestGuard.Proofs.Json.Reading
import RequestGuard.Proofs.Token.Reading

namespace RequestGuard

namespace Base64

theorem letter_ne_dot (n : Nat) : letter n ≠ '.' := by
  have hcapital : ∀ n < 26, Char.ofNat (65 + n) ≠ '.' := by decide
  have hsmall : ∀ n < 52, Char.ofNat (71 + n) ≠ '.' := by decide
  have hdigit : ∀ n < 62, 52 ≤ n → Char.ofNat (n - 4) ≠ '.' := by decide
  unfold letter
  split
  · exact hcapital n ‹_›
  · split
    · exact hsmall n ‹_›
    · split
      · exact hdigit n ‹_› (by omega)
      · split
        · decide
        · decide

theorem ne_dot_of_mem_encode {bytes : Bytes} : ∀ c ∈ encode bytes, c ≠ '.' := by
  fun_induction encode bytes with
  | case1 => simp
  | case2 a => simp [letter_ne_dot]
  | case3 a b => simp [letter_ne_dot]
  | case4 a b c rest ih => simpa [letter_ne_dot] using ih

theorem dot_notMem_bytesOf_encode (bytes : Bytes) :
    (0x2E : UInt8) ∉ bytesOf (String.ofList (encode bytes)) := by
  have hcount := Utf8.count_bytesOf (d := '.') (by decide) (String.ofList (encode bytes))
  have hzero : (encode bytes).count '.' = 0 :=
    List.count_eq_zero.mpr fun hmem => ne_dot_of_mem_encode _ hmem rfl
  rw [String.toList_ofList, hzero] at hcount
  exact List.count_eq_zero.mp hcount

end Base64

namespace Credential

variable {secret token : String} {claims : Claims} {payload : Bytes} {expiry now leeway : Nat}

theorem splitLast_append {before after : Bytes} (h : (0x2E : UInt8) ∉ after) :
    splitLast (before ++ 0x2E :: after) = some (before, after) := by
  have hall : ∀ b ∈ after.reverse, (b != 0x2E) = true := by
    intro b hb
    have hne : b ≠ 0x2E := fun heq => h (heq ▸ List.mem_reverse.mp hb)
    simpa using hne
  have hback : (before ++ 0x2E :: after).reverse = after.reverse ++ 0x2E :: before.reverse := by
    simp
  have hmem : (before ++ 0x2E :: after).contains 0x2E = true := by simp
  simp only [splitLast, hmem, if_true, hback, List.takeWhile_append_of_pos hall,
    List.dropWhile_append_of_pos hall]
  simp

-- A token of three parts: a header that names the algorithm, a payload, and the signature of both
-- under the secret.
inductive Signed (secret token : String) (payload : Bytes) : Prop
  | parts {header part : Bytes} :
      bytesOf token = (header ++ 0x2E :: part) ++ 0x2E ::
        bytesOf (String.ofList (sign (bytesOf secret) (header ++ 0x2E :: part))) →
      readHeader header = .ok "HS256" → decodePart part = .ok payload →
      Signed secret token payload

theorem verified_eq_ok_iff : verified secret token = .ok payload ↔ Signed secret token payload := by
  constructor
  · intro h
    obtain ⟨message, signature, header, part, algorithm, hlast, hfirst, hheader⟩ := verified_ok h
    obtain ⟨htoken, -⟩ := splitLast_eq_some hlast
    obtain ⟨rfl, -⟩ := splitLast_eq_some hfirst
    simp only [verified, hlast, hfirst, hheader, bind, Except.bind] at h
    split at h
    · contradiction
    · next halgorithm =>
        split at h
        · contradiction
        · next hsignature =>
            rw [not_not] at halgorithm hsignature
            subst halgorithm hsignature
            exact .parts htoken hheader h
  · intro h
    cases h with
    | @parts header part htoken hheader hpart =>
        have hlast := htoken ▸ splitLast_append (Base64.dot_notMem_bytesOf_encode
          (hmac (bytesOf secret) (header ++ 0x2E :: part)))
        have hfirst : splitLast (header ++ 0x2E :: part) = some (header, part) :=
          splitLast_append (dot_notMem_of_decodePart hpart)
        simp only [verified, hlast, hfirst, hheader, bind, Except.bind]
        rw [if_neg (not_not.mpr rfl)]
        simp only [sign, ne_eq, not_true, if_false]
        exact hpart

-- What a payload says, and the expiry under which it is registered. It is meant for nobody in
-- particular.
inductive Says (payload : Bytes) (claims : Claims) (expiry : Nat) : Prop
  | claims {record registered : Json} : readPart Claims.schema.read payload = .ok record →
      Claims.ofRecord record = some claims →
      readPart (Json.readRecord "struct ClaimsForValidation" Json.registeredFields) payload =
        .ok registered →
      (registered.get? "exp").bind Claims.word? = some expiry →
      isAudience ((registered.get? "aud").getD .null) = false → Says payload claims expiry

-- Nothing but the check of the expiry is left for such a token.
theorem read_of_said {check : Expiry} (hsigned : Signed secret token payload)
    (hsaid : Says payload claims expiry) :
    read secret check token = (check.check expiry).map fun _ => claims := by
  obtain ⟨hrecord, hclaims, hregistered, hexpiry, haudience⟩ := hsaid
  have hpayload := verified_eq_ok_iff.mpr hsigned
  simp only [read, hpayload, hrecord, hclaims, hregistered, hexpiry, haudience, bind, Except.bind]
  cases check.check expiry <;> rfl

theorem read_eq_ok_iff {check : Expiry} : read secret check token = .ok claims ↔
    ∃ payload expiry, Signed secret token payload ∧ Says payload claims expiry ∧
      check.check expiry = .ok () := by
  constructor
  · intro h
    obtain ⟨payload, hpayload, h⟩ := Json.bind_eq_ok h
    obtain ⟨record, hrecord, h⟩ := Json.bind_eq_ok h
    split at h
    · next found hclaims =>
        obtain ⟨registered, hregistered, h⟩ := Json.bind_eq_ok h
        split at h
        · next expiry hexpiry =>
            obtain ⟨⟨⟩, hcheck, h⟩ := Json.bind_eq_ok h
            split at h
            · contradiction
            · next haudience =>
                cases h
                rw [Bool.not_eq_true] at haudience
                exact ⟨payload, expiry, verified_eq_ok_iff.mp hpayload,
                  .claims hrecord hclaims hregistered hexpiry haudience, hcheck⟩
        · contradiction
    · contradiction
  · rintro ⟨payload, expiry, hsigned, hsaid, hcheck⟩
    rw [read_of_said hsigned hsaid, hcheck]
    rfl

-- The leeway is taken from the time, so there is no leeway beyond all the time there has been.
theorem check_eq_ok_iff : Expiry.check expiry (.checked now leeway) = .ok () ↔
    leeway ≤ now ∧ now ≤ expiry + leeway := by
  simp only [Expiry.check]
  split
  · next hlong =>
      simp only [reduceCtorEq, false_iff]
      omega
  · next hshort =>
      split
      · next hexpired =>
          simp only [reduceCtorEq, false_iff]
          omega
      · next hfresh =>
          simp only [true_iff]
          omega

-- Reading breaks off for a leeway that is longer than all the time there has been, and for nothing
-- else.
def Completes {α : Type} (reading : Except Fault α) : Prop :=
  reading ≠ .error .leewayOverflow

theorem Completes.bind {α β : Type} {reading : Except Fault α} {next : α → Except Fault β}
    (h : Completes reading) (hnext : ∀ a, Completes (next a)) :
    Completes (reading.bind next) := by
  cases reading with
  | error fault => exact fun heq => h (congrArg Except.error (Except.error.inj heq))
  | ok a => exact hnext a

theorem Completes.fault {α : Type} {fault : Fault} (h : fault ≠ .leewayOverflow) :
    Completes (α := α) (.error fault) :=
  fun heq => h (Except.error.inj heq)

theorem Completes.ok {α : Type} (a : α) : Completes (.ok a) :=
  fun heq => by cases heq

theorem completes_decodePart (part : Bytes) : Completes (decodePart part) := by
  unfold decodePart
  cases Base64.decode part with
  | error fault => exact .fault (by simp)
  | ok bytes => exact .ok bytes

theorem completes_readPart (reader : Json.Reader Json) (text : Bytes) :
    Completes (readPart reader text) := by
  unfold readPart
  cases Json.complete reader text with
  | error fault => exact .fault (by simp)
  | ok value => exact .ok value

theorem completes_readHeader (part : Bytes) : Completes (readHeader part) :=
  (completes_decodePart part).bind fun _ => (completes_readPart _ _).bind fun _ => .ok _

theorem completes_verified (secret token : String) : Completes (verified secret token) := by
  unfold verified
  split
  · next message signature _ =>
      split
      · next header part _ =>
          refine (completes_readHeader header).bind fun algorithm => ?_
          by_cases halgorithm : algorithm = "HS256"
          · rw [if_neg (not_not.mpr halgorithm)]
            dsimp only
            split
            · exact .fault (by simp)
            · exact completes_decodePart part
          · rw [if_pos halgorithm]
            exact .fault (by simp)
      · exact .fault (by simp)
  · exact .fault (by simp)

theorem completes_check (h : leeway ≤ now) :
    Completes (Expiry.check expiry (.checked now leeway)) := by
  rw [Expiry.check, if_neg (Nat.not_lt.mpr h)]
  split
  · exact .fault (by simp)
  · exact .ok _

theorem completes_read (secret token : String) (h : leeway ≤ now) :
    Completes (read secret (.checked now leeway) token) := by
  refine (completes_verified secret token).bind fun payload => ?_
  refine (completes_readPart _ payload).bind fun record => ?_
  split
  · refine (completes_readPart _ payload).bind fun registered => ?_
    split
    · refine (completes_check h).bind fun _ => ?_
      split
      · exact .fault (by simp)
      · exact .ok _
    · exact .fault (by simp)
  · exact .fault (by simp [unreadable])

end Credential

end RequestGuard
