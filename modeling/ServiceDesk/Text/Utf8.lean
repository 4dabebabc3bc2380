/-!
Reading bytes as UTF-8. Ill-formed bytes are not lost: each maximal ill-formed part is reported in
its place, so that a strict reader can refuse the text and a lenient one can put the replacement
character U+FFFD there.
-/

namespace ServiceDesk.Text

def utf8Bytes (text : String) : List Nat := text.toUTF8.toList.map UInt8.toNat

def isContinuation (byte : Nat) : Bool := decide (0x80 ≤ byte) && decide (byte ≤ 0xBF)

/-- The bytes that may follow a first byte of a character with three or four bytes. -/
def secondByteRange (first : Nat) : Nat × Nat :=
  if first = 0xE0 then (0xA0, 0xBF)
  else if first = 0xED then (0x80, 0x9F)
  else if first = 0xF0 then (0x90, 0xBF)
  else if first = 0xF4 then (0x80, 0x8F)
  else (0x80, 0xBF)

def mayFollow (first second : Nat) : Bool :=
  let range := secondByteRange first
  decide (range.1 ≤ second) && decide (second ≤ range.2)

/-- The first character of a non-empty byte list, or `none` for an ill-formed part, and the number
of bytes after the first one that belong to it. -/
def utf8Head (first : Nat) (rest : List Nat) : Option Char × Nat :=
  if first < 0x80 then (some (Char.ofNat first), 0)
  else if 0xC2 ≤ first ∧ first ≤ 0xDF then
    match rest with
    | b :: _ =>
      if isContinuation b then (some (Char.ofNat ((first - 0xC0) * 64 + (b - 0x80))), 1)
      else (none, 0)
    | [] => (none, 0)
  else if 0xE0 ≤ first ∧ first ≤ 0xEF then
    match rest with
    | b :: after =>
      if mayFollow first b then
        match after with
        | c :: _ =>
          if isContinuation c then
            (some (Char.ofNat ((first - 0xE0) * 4096 + (b - 0x80) * 64 + (c - 0x80))), 2)
          else (none, 1)
        | [] => (none, 1)
      else (none, 0)
    | [] => (none, 0)
  else if 0xF0 ≤ first ∧ first ≤ 0xF4 then
    match rest with
    | b :: after =>
      if mayFollow first b then
        match after with
        | c :: last =>
          if isContinuation c then
            match last with
            | d :: _ =>
              if isContinuation d then
                (some (Char.ofNat ((first - 0xF0) * 262144 + (b - 0x80) * 4096
                  + (c - 0x80) * 64 + (d - 0x80))), 3)
              else (none, 2)
            | [] => (none, 2)
          else (none, 1)
        | [] => (none, 1)
      else (none, 0)
    | [] => (none, 0)
  else (none, 0)

/-- The characters of a byte list, with `none` for every maximal ill-formed part. -/
def utf8Chars : List Nat → List (Option Char)
  | [] => []
  | first :: rest =>
    let head := utf8Head first rest
    head.1 :: utf8Chars (rest.drop head.2)
  termination_by bytes => bytes.length
  decreasing_by
    simp only [List.length_drop, List.length_cons]
    omega

/-- Read bytes as UTF-8 and refuse ill-formed ones. -/
def decodeUtf8? (bytes : List Nat) : Option (List Char) := (utf8Chars bytes).mapM id

/-- Read bytes as UTF-8 with U+FFFD for every ill-formed part. -/
def decodeUtf8 (bytes : List Nat) : List Char :=
  (utf8Chars bytes).map fun c => c.getD '\uFFFD'

end ServiceDesk.Text
