import RequestGuard.Text.Quoted
import RequestGuard.Text.Utf8

namespace RequestGuard.Sha256

-- The fractional parts of the square roots of the first eight primes.
def initial : List UInt32 := [
  0x6A09E667, 0xBB67AE85, 0x3C6EF372, 0xA54FF53A, 0x510E527F, 0x9B05688C, 0x1F83D9AB, 0x5BE0CD19]

-- The fractional parts of the cube roots of the first sixty-four primes.
def constants : List UInt32 := [
  0x428A2F98, 0x71374491, 0xB5C0FBCF, 0xE9B5DBA5, 0x3956C25B, 0x59F111F1, 0x923F82A4, 0xAB1C5ED5,
  0xD807AA98, 0x12835B01, 0x243185BE, 0x550C7DC3, 0x72BE5D74, 0x80DEB1FE, 0x9BDC06A7, 0xC19BF174,
  0xE49B69C1, 0xEFBE4786, 0x0FC19DC6, 0x240CA1CC, 0x2DE92C6F, 0x4A7484AA, 0x5CB0A9DC, 0x76F988DA,
  0x983E5152, 0xA831C66D, 0xB00327C8, 0xBF597FC7, 0xC6E00BF3, 0xD5A79147, 0x06CA6351, 0x14292967,
  0x27B70A85, 0x2E1B2138, 0x4D2C6DFC, 0x53380D13, 0x650A7354, 0x766A0ABB, 0x81C2C92E, 0x92722C85,
  0xA2BFE8A1, 0xA81A664B, 0xC24B8B70, 0xC76C51A3, 0xD192E819, 0xD6990624, 0xF40E3585, 0x106AA070,
  0x19A4C116, 0x1E376C08, 0x2748774C, 0x34B0BCB5, 0x391C0CB3, 0x4ED8AA4A, 0x5B9CCA4F, 0x682E6FF3,
  0x748F82EE, 0x78A5636F, 0x84C87814, 0x8CC70208, 0x90BEFFFA, 0xA4506CEB, 0xBEF9A3F7, 0xC67178F2]

def rotate (x : UInt32) (n : UInt32) : UInt32 :=
  (x >>> n) ||| (x <<< (32 - n))

def bigEndian (bytes : Bytes) : UInt32 :=
  bytes.foldl (fun word b => word <<< 8 ||| b.toUInt32) 0

def bytesOfWord (w : UInt32) : Bytes :=
  [(w >>> 24).toUInt8, (w >>> 16).toUInt8, (w >>> 8).toUInt8, w.toUInt8]

def lengthBytes (n : Nat) : Bytes :=
  (List.range 8).map fun i => UInt8.ofNat (n / Nat.pow 256 (7 - i))

-- A one, zeros, and the length in bits, up to a whole number of blocks.
def padded (message : Bytes) : Bytes :=
  let zeros := (119 - message.length % 64) % 64
  message ++ 0x80 :: List.replicate zeros 0 ++ lengthBytes (8 * message.length)

def chunks (size : Nat) : Nat → Bytes → List Bytes
  | 0, _ => []
  | n + 1, bytes => bytes.take size :: chunks size n (bytes.drop size)

-- The words of the schedule, latest first: each new one comes from those 2, 7, 15 and 16
-- places before it.
def extend (latest : List UInt32) : List UInt32 :=
  match latest[1]?, latest[6]?, latest[14]?, latest[15]? with
  | some a, some b, some c, some d =>
    let s0 := rotate c 7 ^^^ rotate c 18 ^^^ (c >>> 3)
    let s1 := rotate a 17 ^^^ rotate a 19 ^^^ (a >>> 10)
    (d + s0 + b + s1) :: latest
  | _, _, _, _ => latest

def schedule (block : Bytes) : List UInt32 :=
  let words := (chunks 4 16 block).map bigEndian
  ((List.range 48).foldl (fun latest _ => extend latest) words.reverse).reverse

def round (state : List UInt32) (constant word : UInt32) : List UInt32 :=
  match state with
  | [a, b, c, d, e, f, g, h] =>
    let s1 := rotate e 6 ^^^ rotate e 11 ^^^ rotate e 25
    let choice := (e &&& f) ^^^ ((~~~ e) &&& g)
    let t1 := h + s1 + choice + constant + word
    let s0 := rotate a 2 ^^^ rotate a 13 ^^^ rotate a 22
    let majority := (a &&& b) ^^^ (a &&& c) ^^^ (b &&& c)
    [t1 + (s0 + majority), a, b, c, d + t1, e, f, g]
  | other => other

def compress (state : List UInt32) (block : Bytes) : List UInt32 :=
  let mixed := (constants.zip (schedule block)).foldl (fun s (k, w) => round s k w) state
  List.zipWith (· + ·) state mixed

def digest (message : Bytes) : Bytes :=
  let text := padded message
  ((chunks 64 (text.length / 64) text).foldl compress initial).flatMap bytesOfWord

end RequestGuard.Sha256

namespace RequestGuard

def hexText (bytes : Bytes) : String :=
  String.ofList (bytes.flatMap fun b =>
    [Text.hexDigit (b.toNat / 16), Text.hexDigit (b.toNat % 16)])

-- A keyed digest. A key longer than a block is digested first.
def hmac (key message : Bytes) : Bytes :=
  let short := if 64 < key.length then Sha256.digest key else key
  let block := short ++ List.replicate (64 - short.length) 0
  Sha256.digest (block.map (· ^^^ 0x5C) ++ Sha256.digest (block.map (· ^^^ 0x36) ++ message))

-- A message of one block, and a message under a key that is shorter than a block.
example : hexText (Sha256.digest (bytesOf "abc")) =
    "ba7816bf8f01cfea414140de5dae2223b00361a396177a9cb410ff61f20015ad" := by
  decide +kernel

example : hexText (hmac (bytesOf "Jefe") (bytesOf "what do ya want for nothing?")) =
    "5bdcc146bf60754e6a042426089575c75a003f089d2739839dec58b964ec3843" := by
  decide +kernel

end RequestGuard
