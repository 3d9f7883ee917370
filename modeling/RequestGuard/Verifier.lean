import RequestGuard.Event
import RequestGuard.Failure
import RequestGuard.Settings.Basic
import RequestGuard.Token.Credential

namespace RequestGuard

structure Identity where
  userId : String
  isActive : Bool
deriving DecidableEq

namespace Identity

def toJson (identity : Identity) : Json :=
  .ofMembers [("user_id", .text identity.userId), ("is_active", .bool identity.isActive)]

end Identity

-- Who a credential belongs to, if anybody. Looking that up may fail.
abbrev Resolver := Claims → Except Failure (Option Identity)

namespace Resolver

-- Everybody who is named is known, and active unless the claims deny it.
def ofClaims : Resolver := fun claims =>
  .ok <|
    if trimmed claims.subject = "" then none
    else some ⟨claims.subject, claims.active.getD true⟩

end Resolver

structure Verified where
  identity : Identity
  credentialId : String

-- A store or a resolver that fails says nothing about the caller, so it makes no event.
structure Refusal where
  failure : Failure
  event : Option Event

namespace Verifier

def invalid (reason internal : String) : Refusal :=
  ⟨.authentication internal, some (.invalidCredential reason)⟩

def reason : Credential.Fault → String
  | .expired => "expired"
  | .signature => "invalid_signature"
  | _ => "malformed"

def rejected (fault : Credential.Fault) : Refusal :=
  invalid (reason fault) ("credential rejected: " ++ fault.message)

-- Only credentials for access, or of no stated kind, are good for a request.
def checkKind (claims : Claims) : Except Refusal Unit :=
  match claims.kind with
  | some kind =>
    if kind = "access" then .ok ()
    else .error (invalid "wrong_type"
      ("credential of type '" ++ kind ++ "' cannot authenticate requests"))
  | none => .ok ()

def unavailable (error : StoreError) : Refusal :=
  ⟨.external ("revocation list unavailable: " ++ error.message), none⟩

def revoked (id : String) : Refusal :=
  ⟨.revoked ("credential " ++ id ++ " has been revoked"), some (.revokedCredential id)⟩

def resolve (resolver : Resolver) (claims : Claims) (id : String) : Except Refusal Verified :=
  match resolver claims with
  | .error failure => .error ⟨failure, none⟩
  | .ok none =>
    .error (invalid "unknown_subject" ("no identity for subject '" ++ claims.subject ++ "'"))
  | .ok (some identity) =>
    if identity.isActive then .ok ⟨identity, id⟩
    else .error ⟨.authorization ("identity " ++ identity.userId ++ " is inactive"),
      some (.inactiveIdentity identity.userId)⟩

-- Looks at the token, its kind, the revocation list, the identity and its state, in this
-- order.
def verify (settings : AuthSettings) (resolver : Resolver) (now storeNow : Nat)
    (token : String) (backend : Backend) : Except Crash (Except Refusal Verified) × Backend :=
  match Credential.read settings.secret (.checked now settings.leeway) token with
  | .error .leewayOverflow => (.error .leewayOverflow, backend)
  | .error fault => (.ok (.error (rejected fault)), backend)
  | .ok claims =>
    match checkKind claims with
    | .error refusal => (.ok (.error refusal), backend)
    | .ok () =>
      let id := Credential.idOf token claims
      match backend.contains storeNow (Credential.revocationKey id) with
      | (.broken crash, backend) => (.error crash, backend)
      | (.failed error, backend) => (.ok (.error (unavailable error)), backend)
      | (.done true, backend) => (.ok (.error (revoked id)), backend)
      | (.done false, backend) => (.ok (resolve resolver claims id), backend)

end Verifier

end RequestGuard
