import RequestGuard.Origin
import RequestGuard.Proofs.Address.Writing

namespace RequestGuard

namespace Request

open Address (Spells read_iff)

-- The first of the forwarders that are listed is an address.
def Forwards (request : Request) (address : Address) : Prop :=
  ∃ value, request.headers.text? "x-forwarded-for" = some value ∧
    Spells (Text.trim (value.toList.takeWhile (· != ','))) address

def Reports (request : Request) (address : Address) : Prop :=
  ∃ value, request.headers.text? "x-real-ip" = some value ∧ Spells (Text.trim value.toList) address

-- Where a request comes from. Behind a proxy the headers are asked first, and the peer only if
-- neither of them tells an address.
inductive ComesFrom (request : Request) : Bool → Address → Prop where
  | direct {address : Address} (hpeer : request.peer = some address) :
      ComesFrom request false address
  | forwarded {address : Address} (h : request.Forwards address) : ComesFrom request true address
  | reported {address : Address} (hforwards : ∀ other, ¬request.Forwards other)
      (h : request.Reports address) : ComesFrom request true address
  | untold {address : Address} (hforwards : ∀ other, ¬request.Forwards other)
      (hreports : ∀ other, ¬request.Reports other) (hpeer : request.peer = some address) :
      ComesFrom request true address

variable {request other : Request} {address : Address} {behindProxy otherProxy : Bool}

theorem forwardedFor_iff : request.forwardedFor = some address ↔ request.Forwards address := by
  simp only [forwardedFor, Forwards, Option.bind_eq_bind, Option.bind_eq_some_iff, read_iff]

theorem realAddress_iff : request.realAddress = some address ↔ request.Reports address := by
  simp only [realAddress, Reports, Option.bind_eq_bind, Option.bind_eq_some_iff, read_iff]

theorem forwardedFor_eq_none : request.forwardedFor = none ↔ ∀ other, ¬request.Forwards other := by
  simp only [Option.eq_none_iff_forall_ne_some, ne_eq, forwardedFor_iff]

theorem realAddress_eq_none : request.realAddress = none ↔ ∀ other, ¬request.Reports other := by
  simp only [Option.eq_none_iff_forall_ne_some, ne_eq, realAddress_iff]

theorem origin_iff : request.origin behindProxy = some address ↔
    request.ComesFrom behindProxy address := by
  cases behindProxy with
  | false =>
      constructor
      · exact fun h => .direct h
      · rintro ⟨hpeer⟩
        exact hpeer
  | true =>
      simp only [origin, if_true, Option.or_eq_some_iff, forwardedFor_iff, realAddress_iff,
        forwardedFor_eq_none, realAddress_eq_none]
      constructor
      · rintro (h | ⟨hforwards, h | ⟨hreports, hpeer⟩⟩)
        · exact .forwarded h
        · exact .reported hforwards h
        · exact .untold hforwards hreports hpeer
      · intro h
        cases h with
        | forwarded h => exact .inl h
        | reported hforwards h => exact .inr ⟨hforwards, .inl h⟩
        | untold hforwards hreports hpeer => exact .inr ⟨hforwards, .inr ⟨hreports, hpeer⟩⟩

theorem origin_eq_none : request.origin behindProxy = none ↔
    ∀ address, ¬request.ComesFrom behindProxy address := by
  simp only [Option.eq_none_iff_forall_ne_some, ne_eq, origin_iff]

theorem anonymousIdentity_of_comesFrom (h : request.ComesFrom behindProxy address) :
    request.anonymousIdentity behindProxy = "ip:" ++ address.text := by
  rw [anonymousIdentity, origin_iff.mpr h]

-- No address is written as the word for a missing one.
theorem text_ne_unknown (address : Address) : address.text ≠ "unknown" := by
  intro h
  have hread := Address.ofText_text address
  have hunknown : Address.ofText "unknown" = none := by decide
  rw [h, hunknown] at hread
  cases hread

theorem anonymousIdentity_eq_unknown_iff : request.anonymousIdentity behindProxy = "ip:unknown" ↔
    ∀ address, ¬request.ComesFrom behindProxy address := by
  constructor
  · intro h address hfrom
    rw [anonymousIdentity_of_comesFrom hfrom] at h
    have htext : "ip:" ++ address.text = "ip:" ++ "unknown" := h
    exact text_ne_unknown address ((String.append_right_inj _).mp htext)
  · intro h
    rw [anonymousIdentity, origin_eq_none.mpr h]

-- A caller who has not said who they are is named by the address they come from, in the one text
-- that this address is written in, however it was spelled. The name gives the address back.
theorem identity_canonical (request : Request) (behindProxy : Bool) :
    (∀ address, request.origin behindProxy = some address ↔
      request.ComesFrom behindProxy address) ∧
    (request.anonymousIdentity behindProxy = "ip:unknown" ↔
      ∀ address, ¬request.ComesFrom behindProxy address) ∧
    (∀ address, request.ComesFrom behindProxy address → ∃ text,
      request.anonymousIdentity behindProxy = "ip:" ++ text ∧
        Address.ofText text = some address) ∧
    ∀ (other : Request) (otherProxy : Bool) (a b : Address), request.ComesFrom behindProxy a →
      other.ComesFrom otherProxy b →
        (request.anonymousIdentity behindProxy = other.anonymousIdentity otherProxy ↔ a = b) := by
  refine ⟨fun _ => origin_iff, anonymousIdentity_eq_unknown_iff, ?_, ?_⟩
  · intro address hfrom
    exact ⟨address.text, anonymousIdentity_of_comesFrom hfrom, Address.ofText_text address⟩
  · intro other otherProxy a b ha hb
    rw [anonymousIdentity_of_comesFrom ha, anonymousIdentity_of_comesFrom hb,
      String.append_right_inj]
    constructor
    · exact fun htext => Address.text_inj htext
    · rintro rfl
      rfl

-- One address in the words of a proxy, with capitals, zeros and octets, and as that of the peer.
theorem identity_canonical_two_spellings :
    let proxied : Request :=
      { headers := [("x-forwarded-for", bytesOf "2001:0DB8:0::0.0.0.1, 10.0.0.1")] }
    let direct : Request := { peer := Address.ofText "2001:db8::1" }
    let address : Address := .v6 [0x2001, 0xDB8, 0, 0, 0, 0, 0, 1] rfl
    proxied.ComesFrom true address ∧ direct.ComesFrom false address ∧
      (∃ text, proxied.anonymousIdentity true = "ip:" ++ text ∧
        Address.ofText text = some address) ∧
      proxied.anonymousIdentity true = direct.anonymousIdentity false := by
  intro proxied direct address
  obtain ⟨horigin, -, hback, hsame⟩ := identity_canonical proxied true
  have hproxied : proxied.ComesFrom true address := (horigin address).mp (by decide +kernel)
  have hdirect : direct.ComesFrom false address := .direct (by decide +kernel)
  exact ⟨hproxied, hdirect, hback address hproxied,
    (hsame direct false address address hproxied hdirect).mpr rfl⟩

end Request

end RequestGuard
