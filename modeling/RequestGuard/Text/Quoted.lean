import RequestGuard.Text.Character
import RequestGuard.Text.ExtenderRanges
import RequestGuard.Text.HiddenRanges
import RequestGuard.Text.Numeral

namespace RequestGuard.Text

-- Characters that would not be seen, or would be drawn over their neighbour, are written
-- by number.
def escapeQuoted (c : Char) : List Char :=
  if c == '\x00' then ['\\', '0']
  else if c == '\t' then ['\\', 't']
  else if c == '\n' then ['\\', 'n']
  else if c == '\r' then ['\\', 'r']
  else if c == '"' then ['\\', '"']
  else if c == '\\' then ['\\', '\\']
  else if c.toNat < 0x20 || c.toNat == 0x7F || covers hiddenRanges c.toNat ||
      covers extenderRanges c.toNat then
    ['\\', 'u', '\x7b'] ++ hexDigits c.toNat ++ ['\x7d']
  else [c]

def quoted (s : String) : String :=
  String.ofList (['"'] ++ s.toList.flatMap escapeQuoted ++ ['"'])

end RequestGuard.Text
