import ServiceDesk.Text.Ascii
import ServiceDesk.Text.Utf8

/-!
Percent-encoding, in the segments of a path and in query strings. A percent sign without two
hexadecimal digits behind it stands for itself. A segment must be UTF-8 once it is decoded; in a
query string ill-formed bytes are replaced and a plus sign is a blank.
-/

namespace ServiceDesk.Web

open Text

def percentByte : Nat := 0x25

def escapedByte? (mark high low : Nat) : Option Nat :=
  if mark = percentByte then do
    let high ← hexValue? (Char.ofNat high)
    let low ← hexValue? (Char.ofNat low)
    some (16 * high + low)
  else none

/-- Replace every percent sign that has two hexadecimal digits behind it by the byte they write. -/
def percentDecode : List Nat → List Nat
  | mark :: high :: low :: rest =>
    match escapedByte? mark high low with
    | some byte => byte :: percentDecode rest
    | none => mark :: percentDecode (high :: low :: rest)
  | rest => rest

/-- The text of a path segment, if its bytes are UTF-8. -/
def decodeSegment? (segment : String) : Option String :=
  (decodeUtf8? (percentDecode (utf8Bytes segment))).map String.ofList

def decodeFormPart (part : String) : String :=
  String.ofList (decodeUtf8 (percentDecode (utf8Bytes (part.map fun c =>
    if c = '+' then ' ' else c))))

end ServiceDesk.Web
