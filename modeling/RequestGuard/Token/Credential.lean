import RequestGuard.Store
import RequestGuard.Token.Base64
import RequestGuard.Token.Claims
import RequestGuard.Token.Key
import RequestGuard.Token.Sha256

namespace RequestGuard

namespace Json

def algorithms : List String :=
  ["HS256", "HS384", "HS512", "ES256", "ES384", "RS256", "RS384", "RS512", "PS256", "PS384",
    "PS512", "EdDSA"]

def readVariant (known : List String) (input : Bytes) : Except Fault (Json × Bytes) :=
  match skip input with
  | 0x22 :: rest =>
    match readText rest with
    | .error fault => .error fault
    | .ok (name, after) =>
      if known.contains name then .ok (.text name, after)
      else .error (.behind (.unknownVariant name known) after)
  | [] => .error (.atEnd .endInValue)
  | other => .error (mismatch "variant identifier" other)

-- The name in an object that holds one member.
def readSingleName (known : List String) (input : Bytes) : Except Fault (Json × Bytes) :=
  match skip input with
  | [] => .error (.atEnd .endInValue)
  | b :: rest =>
    if b == 0x22 then readVariant known (b :: rest)
    else .error (.upon (if b == 0x7D then .expectedValue else .expectedKey) b rest)

-- The end of an object that holds one member.
def readSingleEnd (input : Bytes) : Except Fault Bytes :=
  match skip input with
  | 0x7D :: rest => .ok rest
  | [] => .error (.atEnd .endInObject)
  | other => .error (.behind .expectedValue other)

def readNothing (input : Bytes) : Except Fault Bytes :=
  match skip input with
  | [] => .error (.atEnd .endInValue)
  | 0x6E :: rest => readWord rull rest
  | other => .error (mismatch "unit" other)

-- An algorithm is given by its name, or as an object with its name as the only key and null
-- as the value.
def readAlgorithm (input : Bytes) : Except Fault (Json × Bytes) :=
  match skip input with
  | [] => .error (.atEnd .endInValue)
  | b :: rest =>
    if b == 0x22 then readVariant algorithms (b :: rest)
    else if b == 0x7B then do
      let (name, after) ← readSingleName algorithms rest
      let value ← readColon after
      let unit ← readNothing value
      let last ← readSingleEnd unit
      return (name, last)
    else .error (.upon .expectedValue b rest)

def readTextList (input : Bytes) : Except Fault (Json × Bytes) :=
  match skip input with
  | 0x5B :: rest =>
    (readItems readTextField (rest.length + 1) true rest).map
      fun (items, after) => (.array items, after)
  | other => .error (mismatch "a sequence" other)

-- A key is looked at once it has been read, so what is wrong with it is told behind it.
def readKey (input : Bytes) : Except Fault (Json × Bytes) :=
  match skip input with
  | 0x7B :: rest => do
    let (key, after) ← readLiteral (nestingLimit - 1) (0x7B :: rest)
    match conformKey key with
    | .ok value => return (value, after)
    | .error cause => throw (.behind cause after)
  | other => .error (mismatch "struct Jwk" other)

def headerFields : List Field :=
  let optional (name : String) (read : Reader Json) : Field :=
    ⟨name, .nullable, readOptional read⟩
  [optional "typ" readTextField, ⟨"alg", .required, readAlgorithm⟩, optional "cty" readTextField,
    optional "jku" readTextField, optional "jwk" readKey, optional "kid" readTextField,
    optional "x5u" readTextField, optional "x5c" readTextList, optional "x5t" readTextField,
    optional "x5t#S256" readTextField]

-- The registered claims are read a second time. Values of other types do not matter there:
-- one that cannot be read is given up, and the reading goes on with what it left.

def readLooseWord (input : Bytes) : Except Fault (Json × Bytes) :=
  match skip input with
  | 0x5B :: rest => .ok (.null, listLeft rest)
  | 0x7B :: rest => .ok (.null, objectLeft rest)
  | other =>
    match readWordField other with
    | .ok found => .ok found
    | .error fault => .ok (.null, fault.untaken)

def readLooseText (input : Bytes) : Except Fault (Json × Bytes) :=
  match readOptional readTextField input with
  | .ok found => .ok found
  | .error fault => .ok (.null, fault.untaken)

def readLoose (input : Bytes) : Except Fault (Json × Bytes) :=
  match readValue (nestingLimit - 1) input with
  | .ok found => .ok found
  | .error fault => .ok (.null, fault.untaken)

def registeredFields : List Field := [
  ⟨"exp", .defaulted .null, readLooseWord⟩, ⟨"nbf", .defaulted .null, readLooseWord⟩,
  ⟨"sub", .nullable, readLooseText⟩, ⟨"iss", .nullable, readLoose⟩, ⟨"aud", .nullable, readLoose⟩]

end Json

namespace Credential

inductive Fault where
  | notAToken
  | base64 (fault : Base64.Fault)
  | json (message : String)
  | algorithm
  | signature
  | missingExpiry
  | expired
  | audience
  | leewayOverflow

def Fault.message : Fault → String
  | notAToken => "InvalidToken"
  | base64 fault => "Base64 error: " ++ fault.message
  | json message => "JSON error: " ++ message
  | algorithm => "InvalidAlgorithm"
  | signature => "InvalidSignature"
  | missingExpiry => "Missing required claim: exp"
  | expired => "ExpiredSignature"
  | audience => "InvalidAudience"
  | leewayOverflow => Crash.leewayOverflow.message

-- How the expiry of a token is held against the time.
inductive Expiry where
  | ignored
  | checked (now leeway : Nat)

def Expiry.check (expiry : Nat) : Expiry → Except Fault Unit
  | ignored => .ok ()
  | checked now leeway =>
    if now < leeway then .error .leewayOverflow
    else if expiry < now - leeway then .error .expired
    else .ok ()

-- The parts of a text before and behind its last dot.
def splitLast (text : Bytes) : Option (Bytes × Bytes) :=
  if text.contains 0x2E then
    let back := text.reverse
    some (((back.dropWhile (· != 0x2E)).drop 1).reverse, (back.takeWhile (· != 0x2E)).reverse)
  else none

def sign (secret message : Bytes) : List Char :=
  Base64.encode (hmac secret message)

def decodePart (part : Bytes) : Except Fault Bytes :=
  (Base64.decode part).mapError .base64

def readPart (reader : Json.Reader Json) (text : Bytes) : Except Fault Json :=
  (Json.complete reader text).mapError fun fault => .json (fault.message text)

def readHeader (part : Bytes) : Except Fault String := do
  let header ← readPart (Json.readRecord "struct Header" Json.headerFields) (← decodePart part)
  return ((header.get? "alg").bind Claims.text?).getD ""

def isAudience : Json → Bool
  | .text _ => true
  | .array items => items.all fun item => (Claims.text? item).isSome
  | _ => false

-- The payload of a token that carries a valid signature.
def verified (secret : String) (token : String) : Except Fault Bytes := do
  let some (message, signature) := splitLast (bytesOf token) | throw .notAToken
  let some (header, payload) := splitLast message | throw .notAToken
  if (← readHeader header) ≠ "HS256" then throw .algorithm
  if bytesOf (String.ofList (sign (bytesOf secret) message)) ≠ signature then throw .signature
  decodePart payload

def unreadable : Fault :=
  .json ""

-- Reads a token and looks at its claims.
def read (secret : String) (check : Expiry) (token : String) : Except Fault Claims := do
  let payload ← verified secret token
  let record ← readPart Claims.schema.read payload
  let some claims := Claims.ofRecord record | throw unreadable
  let registered ← readPart
    (Json.readRecord "struct ClaimsForValidation" Json.registeredFields) payload
  let some expiry := (registered.get? "exp").bind Claims.word? | throw .missingExpiry
  check.check expiry
  if isAudience ((registered.get? "aud").getD .null) then throw .audience
  return claims

def header : Json :=
  .object [("typ", .text "JWT"), ("alg", .text "HS256")]

-- A signed token for some claims.
def mint (secret : String) (claims : Claims) : String :=
  let part (value : Json) : List Char := Base64.encode (bytesOf value.written)
  let message := part header ++ '.' :: part claims.toJson
  String.ofList (message ++ '.' :: sign (bytesOf secret) (bytesOf (String.ofList message)))

-- The name under which a credential is revoked: its own id, or the fingerprint of the whole
-- token if it has none.
def idOf (token : String) (claims : Claims) : String :=
  match claims.id with
  | some id => if id = "" then hexText (Sha256.digest (bytesOf token)) else id
  | none => hexText (Sha256.digest (bytesOf token))

def revocationKey (id : String) : String :=
  "revoked:" ++ id

end Credential

end RequestGuard
