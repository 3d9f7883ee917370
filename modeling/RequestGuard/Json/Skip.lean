import RequestGuard.Json.Reader

namespace RequestGuard.Json

-- A value that nobody wants is only looked through: its numbers may be of any size, its
-- texts need not be UTF-8 and its containers may be open to any depth.

def skipExponent (text : Bytes) : Except Fault Bytes :=
  let body := match text with
    | 0x2B :: rest => rest
    | 0x2D :: rest => rest
    | _ => text
  match body with
  | [] => .error (.atEnd .invalidNumber)
  | d :: rest =>
    if isDigit d then .ok (rest.dropWhile isDigit) else .error (.behind .invalidNumber rest)

def skipFraction (text : Bytes) : Except Fault Bytes :=
  let rest := text.dropWhile isDigit
  if rest.length = text.length then .error ⟨.invalidNumber, rest.tail, rest⟩
  else
    match rest with
    | [] => .ok []
    | mark :: after => if isExponentMark mark then skipExponent after else .ok rest

def skipNumberTail (rest : Bytes) : Except Fault Bytes :=
  match rest with
  | [] => .ok []
  | mark :: after =>
    if mark == 0x2E then skipFraction after
    else if isExponentMark mark then skipExponent after
    else .ok rest

def skipNumber : Bytes → Except Fault Bytes
  | [] => .error (.atEnd .invalidNumber)
  | d :: rest =>
    if d == 0x30 then
      match rest with
      | next :: after =>
        if isDigit next then .error (.upon .invalidNumber next after) else skipNumberTail rest
      | [] => .ok []
    else if isDigit d then skipNumberTail (rest.dropWhile isDigit)
    else .error (.behind .invalidNumber rest)

-- The text after an escape that follows a backslash.
def skipEscape : Bytes → Except Fault Bytes
  | [] => .error (.atEnd .endInText)
  | c :: rest =>
    if c == 0x75 then (readHex rest).map Prod.snd
    else if [0x22, 0x5C, 0x2F, 0x62, 0x66, 0x6E, 0x72, 0x74].contains c then .ok rest
    else .error (.behind .invalidEscape rest)

theorem skipEscape_length {text rest : Bytes} (h : skipEscape text = .ok rest) :
    rest.length < text.length := by
  unfold skipEscape at h
  split at h
  · contradiction
  · rename_i c after
    split at h
    · cases hread : readHex after with
      | error fault => simp [hread, Except.map] at h
      | ok found =>
        simp only [hread, Except.map, Except.ok.injEq] at h
        have := readHex_length hread
        rw [← h]
        simp only [List.length_cons]
        omega
    · split at h
      · simp only [Except.ok.injEq] at h
        simp [← h]
      · contradiction

def skipText : Bytes → Except Fault Bytes
  | [] => .error (.atEnd .endInText)
  | b :: rest =>
    if b == 0x22 then .ok rest
    else if b == 0x5C then
      match h : skipEscape rest with
      | .error fault => .error fault
      | .ok after =>
        have := skipEscape_length h
        skipText after
    else if b < 0x20 then .error (.behind .controlCharacter (b :: rest))
    else skipText rest
termination_by text => text.length
decreasing_by
  all_goals simp only [List.length_cons]; omega

inductive Frame where
  | list
  | object
deriving DecidableEq

-- What comes next: a value, the first thing in a container, or what follows a value.
inductive Stage where
  | value
  | opened
  | closed

def skipKey (text : Bytes) : Except Fault Bytes :=
  match skip text with
  | [] => .error (.atEnd .endInObject)
  | b :: rest =>
    if b == 0x22 then
      match skipText rest with
      | .error fault => .error fault
      | .ok after => readColon after
    else .error (.upon .expectedKey b rest)

-- Each round but one per value reads a byte, so twice the length of the text is fuel enough.
def skipValues : Nat → Stage → List Frame → Bytes → Except Fault Bytes
  | 0, _, _, _ => .error (.atEnd .endInValue)
  | fuel + 1, .value, frames, input =>
    match skip input with
    | [] => .error (.atEnd .endInValue)
    | b :: rest =>
      let scalar (read : Except Fault Bytes) : Except Fault Bytes :=
        match read with
        | .error fault => .error fault
        | .ok after => skipValues fuel .closed frames after
      if b == 0x6E then scalar (readWord rull rest)
      else if b == 0x74 then scalar (readWord rrue rest)
      else if b == 0x66 then scalar (readWord ralse rest)
      else if b == 0x2D then scalar (skipNumber rest)
      else if isDigit b then scalar (skipNumber (b :: rest))
      else if b == 0x22 then scalar (skipText rest)
      else if b == 0x5B then skipValues fuel .opened (.list :: frames) rest
      else if b == 0x7B then skipValues fuel .opened (.object :: frames) rest
      else .error (.upon .expectedValue b rest)
  | _ + 1, _, [], input => .ok input
  | fuel + 1, stage, frame :: outer, input =>
    let again (rest : Bytes) : Except Fault Bytes :=
      match frame with
      | .list => skipValues fuel .value (frame :: outer) rest
      | .object =>
        match skipKey rest with
        | .error fault => .error fault
        | .ok after => skipValues fuel .value (frame :: outer) after
    match skip input, frame, stage with
    | [], .list, _ => .error (.atEnd .endInList)
    | [], .object, _ => .error (.atEnd .endInObject)
    | b :: rest, _, .closed =>
      if b == 0x2C then again rest
      else if b == 0x5D && frame = .list || b == 0x7D && frame = .object then
        skipValues fuel .closed outer rest
      else .error (.upon (if frame = .list then .expectedListEnd else .expectedObjectEnd) b rest)
    | b :: rest, _, _ =>
      if b == 0x5D && frame = .list || b == 0x7D && frame = .object then
        skipValues fuel .closed outer rest
      else again (b :: rest)

def skipValue (text : Bytes) : Except Fault Bytes :=
  skipValues (2 * text.length + 2) .value [] text

end RequestGuard.Json
