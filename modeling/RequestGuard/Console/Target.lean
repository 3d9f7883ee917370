import RequestGuard.Settings.Basic
import RequestGuard.Token.Credential

namespace RequestGuard.Console

-- The name under which a credential is revoked, and the seconds until it expires if the
-- token itself was given.
structure Target where
  id : String
  remaining : Option Nat
deriving DecidableEq

def isToken (text : String) : Bool :=
  text.toList.count '.' == 2

-- A text with two dots is a token, whose signature has to be ours; it may have expired. Any
-- other text is an id.
def target (settings : AuthSettings) (now : Nat) (text : String) : Except String Target :=
  if isToken text then
    match Credential.read settings.secret .ignored text with
    | .error fault => .error ("Token signature does not match JWT_SECRET: " ++ fault.message)
    | .ok claims => .ok ⟨Credential.idOf text claims, some (claims.expiry - now)⟩
  else .ok ⟨text, none⟩

end RequestGuard.Console
