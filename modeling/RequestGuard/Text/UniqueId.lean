import RequestGuard.Text.Numeral
import RequestGuard.Text.Utf8

namespace RequestGuard.UniqueId

-- Sets the bits of an id that tell its version and variant.
def marked : Bytes → Bytes
  | b₀ :: b₁ :: b₂ :: b₃ :: b₄ :: b₅ :: b₆ :: b₇ :: b₈ :: rest =>
    b₀ :: b₁ :: b₂ :: b₃ :: b₄ :: b₅ :: (b₆ &&& 0x0F ||| 0x40) :: b₇ ::
      (b₈ &&& 0x3F ||| 0x80) :: rest
  | other => other

def digits (bytes : Bytes) : List Char :=
  bytes.flatMap fun b => [Text.hexDigit (b.toNat / 16), Text.hexDigit (b.toNat % 16)]

-- The text of an id made of sixteen random bytes.
def ofRandom (bytes : Bytes) : String :=
  let all := digits (marked bytes)
  let group (start length : Nat) : List Char := (all.drop start).take length
  String.ofList (['-'].intercalate [group 0 8, group 8 4, group 12 4, group 16 4, group 20 12])

end RequestGuard.UniqueId
