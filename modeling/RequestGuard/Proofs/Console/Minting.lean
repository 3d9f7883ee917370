import RequestGuard.Proofs.Console.Revoking
import RequestGuard.Proofs.Token.Acceptance
import RequestGuard.Proofs.Token.Minting
import RequestGuard.Text.UniqueId

namespace RequestGuard

namespace Text

theorem mem_dropWhile_of_not {p : Char → Bool} {text : List Char} {c : Char} (h : c ∈ text)
    (hc : p c = false) : c ∈ text.dropWhile p := by
  rw [← List.takeWhile_append_dropWhile (p := p) (l := text), List.mem_append] at h
  refine h.resolve_left fun hmem => ?_
  rw [List.mem_takeWhile_imp hmem] at hc
  contradiction

theorem mem_trim {text : List Char} {c : Char} (h : c ∈ text) (hc : isBlank c = false) :
    c ∈ trim text :=
  List.mem_reverse.mpr (mem_dropWhile_of_not
    (List.mem_reverse.mpr (mem_dropWhile_of_not h hc)) hc)

end Text

theorem trimmed_ne_empty {s : String} (h : ∃ c ∈ s.toList, Text.isBlank c = false) :
    trimmed s ≠ "" := by
  obtain ⟨c, hmem, hc⟩ := h
  have htrim := Text.mem_trim hmem hc
  intro hempty
  rw [trimmed, String.ofList_eq_empty_iff] at hempty
  rw [hempty] at htrim
  exact absurd htrim List.not_mem_nil

theorem UniqueId.ofRandom_ne_empty (bytes : Bytes) : ofRandom bytes ≠ "" := by
  simp [ofRandom, List.intercalate]

namespace Resolver

theorem ofClaims_named {claims : Claims}
    (h : ∃ c ∈ claims.subject.toList, Text.isBlank c = false) :
    ofClaims claims = .ok (some ⟨claims.subject, claims.active.getD true⟩) := by
  rw [ofClaims, if_neg (trimmed_ne_empty h)]

end Resolver

namespace Console

variable {settings : Settings} {setting : Setting} {subject : String} {lifetime : Nat}
  {withId : Bool}

-- The name of a token that is minted.
def mintedId (setting : Setting) (withId : Bool) (token : String) : String :=
  if withId then setting.freshId else hexText (Sha256.digest (bytesOf token))

theorem mintedClaims_inRange (h : setting.now + lifetime ≤ Numeral.maxWord) :
    (mintedClaims setting subject lifetime withId).InRange := by
  refine ⟨h, fun n hn => ?_⟩
  obtain rfl : setting.now = n := Option.some.inj hn
  omega

theorem names_minted (hfresh : setting.freshId ≠ "") (token : String) :
    Verifier.Names token (mintedClaims setting subject lifetime withId)
      (mintedId setting withId token) := by
  cases withId with
  | true => exact .given rfl hfresh
  | false => exact .fingerprint fun id hid => by cases hid

theorem mint_ok (settings : Settings) (subject : String) (withId : Bool)
    (h : setting.now + lifetime ≤ Numeral.maxWord) :
    let token := Credential.mint settings.auth.secret (mintedClaims setting subject lifetime withId)
    ∃ outcome, mint settings setting subject lifetime withId = .ok outcome ∧
      outcome.token = some token ∧ "  Token:   " ++ token ∈ outcome.lines := by
  intro token
  rw [mint, if_neg (Nat.not_lt.mpr h)]
  exact ⟨_, rfl, rfl, by simp [token]⟩

theorem decodes_minted {auth : AuthSettings} {time : Nat}
    (hlifetime : setting.now + lifetime ≤ Numeral.maxWord)
    (htime : time ≤ setting.now + lifetime + auth.leeway) :
    let claims := mintedClaims setting subject lifetime withId
    Verifier.Decodes auth time (Credential.mint auth.secret claims) claims := by
  intro claims
  exact ⟨_, _, Credential.signed_mint auth.secret claims,
    Credential.says_written (mintedClaims_inRange hlifetime), htime⟩

theorem ofAccess_minted : Verifier.OfAccess (mintedClaims setting subject lifetime withId) :=
  fun _ hkind => (Option.some.inj hkind).symm

-- A verifier with the secret that a token is minted with. There is nothing wrong with the token
-- itself, so only a store that cannot be asked or a revocation could keep it out.
theorem good_minted {auth : AuthSettings} {time storeTime : Nat} {backend : Backend}
    (hsubject : ∃ c ∈ subject.toList, Text.isBlank c = false)
    (hlifetime : setting.now + lifetime ≤ Numeral.maxWord) (hfresh : setting.freshId ≠ "")
    (htime : time ≤ setting.now + lifetime + auth.leeway) (hlink : backend.link ≠ .failing) :
    let token := Credential.mint auth.secret (mintedClaims setting subject lifetime withId)
    backend.store.live storeTime ("revoked:" ++ mintedId setting withId token) = none →
    Verifier.Good auth .ofClaims time storeTime token backend
      ⟨⟨subject, true⟩, mintedId setting withId token⟩ := by
  intro token hunrevoked
  exact ⟨_, ⟨decodes_minted hlifetime htime, ofAccess_minted, names_minted hfresh token, hlink,
    hunrevoked⟩, Resolver.ofClaims_named hsubject, rfl⟩

theorem target_minted {auth : AuthSettings} (hlifetime : setting.now + lifetime ≤ Numeral.maxWord)
    (hfresh : setting.freshId ≠ "") (time : Nat) :
    let token := Credential.mint auth.secret (mintedClaims setting subject lifetime withId)
    target auth time token =
      .ok ⟨mintedId setting withId token, some (setting.now + lifetime - time)⟩ := by
  intro token
  have hread : Credential.read auth.secret .ignored token =
      .ok (mintedClaims setting subject lifetime withId) :=
    Credential.read_mint _ (mintedClaims_inRange hlifetime) rfl
  rw [target_of_read hread, ← Verifier.names_iff.mp (names_minted hfresh token)]
  rfl

-- A token that the console mints for somebody lets them in with the same secret until it has
-- expired beyond the leeway, unless it is revoked, as long as the store can be asked and the leeway
-- is no longer than the time itself. It goes by its id, or by its fingerprint if it was minted
-- without one, and the console knows it by the same name and for the time that is left.
theorem minted_accepted (settings : Settings) (setting : Setting) (subject : String)
    (lifetime : Nat) (withId : Bool) (hsubject : ∃ c ∈ subject.toList, Text.isBlank c = false)
    (hlifetime : setting.now + lifetime ≤ Numeral.maxWord) (hfresh : setting.freshId ≠ "") :
    ∃ outcome token, mint settings setting subject lifetime withId = .ok outcome ∧
      outcome.token = some token ∧ "  Token:   " ++ token ∈ outcome.lines ∧
      ∀ auth : AuthSettings, auth.secret = settings.auth.secret → ∀ time,
        (∀ storeTime backend, auth.leeway ≤ time → time ≤ setting.now + lifetime + auth.leeway →
          backend.link ≠ .failing →
          backend.store.live storeTime ("revoked:" ++ mintedId setting withId token) = none →
          (Verifier.verify auth .ofClaims time storeTime token backend).1 =
            .ok (.ok ⟨⟨subject, true⟩, mintedId setting withId token⟩)) ∧
        target auth time token =
          .ok ⟨mintedId setting withId token, some (setting.now + lifetime - time)⟩ := by
  obtain ⟨outcome, hmint, htoken, hline⟩ := mint_ok settings subject withId hlifetime
  refine ⟨outcome, _, hmint, htoken, hline, fun auth hsecret time => ?_⟩
  rw [← hsecret]
  refine ⟨fun storeTime backend hleeway htime hlink hunrevoked => ?_,
    target_minted hlifetime hfresh time⟩
  exact Verifier.verify_of_good hleeway
    (good_minted hsubject hlifetime hfresh htime hlink hunrevoked)

-- Minted for a minute, with an id and for a subject between blanks: the last second of the leeway,
-- when the console finds no time left.
theorem minted_accepted_last_second :
    let id := UniqueId.ofRandom (List.replicate 16 0x61)
    let setting : Setting := { now := 1000, storeNow := 0, freshId := id }
    ∃ outcome token, mint lenientSettings setting " é\n" 60 true = .ok outcome ∧
      outcome.token = some token ∧
      (Verifier.verify lenientSettings.auth .ofClaims 1090 0 token {}).1 =
        .ok (.ok ⟨⟨" é\n", true⟩, id⟩) ∧
      target lenientSettings.auth 1090 token = .ok ⟨id, some 0⟩ := by
  intro id setting
  obtain ⟨outcome, token, hmint, htoken, -, haccepted⟩ :=
    minted_accepted lenientSettings setting " é\n" 60 true ⟨'é', by decide, by decide⟩
      (by decide) (UniqueId.ofRandom_ne_empty _)
  obtain ⟨hverify, htarget⟩ := haccepted lenientSettings.auth rfl 1090
  have hid : mintedId setting true token = id := if_pos rfl
  have hleft : setting.now + 60 - 1090 = 0 := by decide
  rw [hid] at hverify htarget
  rw [hleft] at htarget
  exact ⟨outcome, token, hmint, htoken,
    hverify 0 {} (by decide) (by decide) (by decide) rfl, htarget⟩

-- In the second in which it is minted a token does not let anybody in with a leeway that reaches
-- back beyond the beginning of time, nor while the store cannot be asked for revocations.
theorem minted_turned_away :
    let setting : Setting := { now := 1700000000, storeNow := 0, freshId := "c" }
    let overlong : AuthSettings := { secret := "secret", leeway := 9223372036854775808 }
    ∃ outcome token, mint lenientSettings setting "a" 60 true = .ok outcome ∧
      outcome.token = some token ∧
      (Verifier.verify overlong .ofClaims 1700000000 0 token {}).1 = .error .leewayOverflow ∧
      (Verifier.verify lenientSettings.auth .ofClaims 1700000000 0 token { link := .failing }).1 =
        .ok (.error (Verifier.unavailable Backend.refusal)) := by
  intro setting overlong
  have hlifetime : setting.now + 60 ≤ Numeral.maxWord := by decide
  have hdecodes (auth : AuthSettings) (hsecret : lenientSettings.auth.secret = auth.secret) :
      Verifier.Decodes auth 1700000000
        (Credential.mint lenientSettings.auth.secret (mintedClaims setting "a" 60 true))
        (mintedClaims setting "a" 60 true) := by
    rw [hsecret]
    exact decodes_minted hlifetime (Nat.le_add_right_of_le (by decide))
  obtain ⟨outcome, hmint, htoken, -⟩ := mint_ok lenientSettings "a" true hlifetime
  exact ⟨outcome, _, hmint, htoken,
    Verifier.verify_of_overlong (by decide) (hdecodes overlong rfl),
    Verifier.verify_of_unreached (by decide) (hdecodes lenientSettings.auth rfl) ofAccess_minted
      rfl⟩

end Console

end RequestGuard
