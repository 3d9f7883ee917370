namespace RequestGuard

abbrev Bytes := List UInt8

def bytesOf (s : String) : Bytes :=
  s.toList.flatMap String.utf8EncodeChar

namespace Utf8

def isTail (b : UInt8) : Bool :=
  0x80 ≤ b && b ≤ 0xBF

-- The second byte of a longer form is restricted where the form would be overlong, a
-- surrogate or beyond the last code point.
def isSecond (lead second : UInt8) : Bool :=
  isTail second &&
    (lead != 0xE0 || 0xA0 ≤ second) && (lead != 0xED || second ≤ 0x9F) &&
    (lead != 0xF0 || 0x90 ≤ second) && (lead != 0xF4 || second ≤ 0x8F)

def low (b : UInt8) : Nat :=
  b.toNat % 64

-- The first character of a text and the number of bytes it takes, or no character and the
-- number of bytes that could have begun one.
def step : Bytes → Option Char × Nat
  | [] => (none, 0)
  | a :: rest =>
    if a < 0x80 then (some (Char.ofNat a.toNat), 1)
    else if 0xC2 ≤ a && a ≤ 0xDF then
      match rest with
      | b :: _ =>
        if isSecond a b then (some (Char.ofNat (a.toNat % 32 * 64 + low b)), 2) else (none, 1)
      | [] => (none, 1)
    else if 0xE0 ≤ a && a ≤ 0xEF then
      match rest with
      | b :: c :: _ =>
        if !isSecond a b then (none, 1)
        else if isTail c then
          (some (Char.ofNat (a.toNat % 16 * 4096 + low b * 64 + low c)), 3)
        else (none, 2)
      | [b] => (none, if isSecond a b then 2 else 1)
      | [] => (none, 1)
    else if 0xF0 ≤ a && a ≤ 0xF4 then
      match rest with
      | b :: c :: d :: _ =>
        if !isSecond a b then (none, 1)
        else if !isTail c then (none, 2)
        else if isTail d then
          (some (Char.ofNat (a.toNat % 8 * 262144 + low b * 4096 + low c * 64 + low d)), 4)
        else (none, 3)
      | [b, c] => (none, if !isSecond a b then 1 else if isTail c then 3 else 2)
      | [b] => (none, if isSecond a b then 2 else 1)
      | [] => (none, 1)
    else (none, 1)

theorem step_length_pos (a : UInt8) (rest : Bytes) : 0 < (step (a :: rest)).2 := by
  simp only [step]
  repeat' split
  all_goals simp

-- Every character in turn, with `none` for each run of bytes that begins none.
def pieces : Bytes → List (Option Char)
  | [] => []
  | a :: rest => (step (a :: rest)).1 :: pieces ((a :: rest).drop (step (a :: rest)).2)
termination_by bytes => bytes.length
decreasing_by
  have := step_length_pos a rest
  simp only [List.length_drop, List.length_cons]
  omega

def decode (bytes : Bytes) : Option String :=
  ((pieces bytes).mapM id).map String.ofList

def decodeLossy (bytes : Bytes) : String :=
  String.ofList ((pieces bytes).map (·.getD '\uFFFD'))

-- How many bytes come before the first one that begins no character.
def validLength : Bytes → Nat
  | [] => 0
  | a :: rest =>
    match (step (a :: rest)).1 with
    | none => 0
    | some _ => (step (a :: rest)).2 + validLength ((a :: rest).drop (step (a :: rest)).2)
termination_by bytes => bytes.length
decreasing_by
  have := step_length_pos a rest
  simp only [List.length_drop, List.length_cons]
  omega

end Utf8

end RequestGuard
