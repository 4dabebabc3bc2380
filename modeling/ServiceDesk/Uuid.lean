import ServiceDesk.Text.Digits

/-!
Identifiers. A UUID is a number below 2 to the 128. It is always written as thirty-two lower-case
hexadecimal digits in five hyphenated groups, and it is read in that form, without hyphens, in
braces or behind the prefix for a uniform resource name, with digits of either case.
-/

namespace ServiceDesk

open Text

structure Uuid where
  value : Nat
  value_lt : value < 0x100000000000000000000000000000000
  deriving DecidableEq, Repr

namespace Uuid

/-- The identifier with all bits zero, which stands for no organization. -/
def nil : Uuid := ⟨0, by decide⟩

def ofNat? (value : Nat) : Option Uuid :=
  if h : value < 0x100000000000000000000000000000000 then some ⟨value, h⟩ else none

/-- The random identifier of version four with the given free bits: 48 high, 12 middle and 62 low
ones. -/
def ofRandom (high middle low : Nat) : Uuid where
  value := high % 0x1000000000000 * 0x100000000000000000000 +
    (0x4000 + middle % 0x1000) * 0x10000000000000000 +
    (0x8000000000000000 + low % 0x4000000000000000)
  value_lt := by omega

/-- Split thirty-two digits into groups of 8, 4, 4, 4 and 12 with a hyphen between them. -/
def hyphenate (digits : List Char) : List Char :=
  digits.take 8 ++ '-' :: ((digits.drop 8).take 4 ++ '-' :: ((digits.drop 12).take 4 ++
    '-' :: ((digits.drop 16).take 4 ++ '-' :: digits.drop 20)))

def withoutHyphens? (text : List Char) : Option (List Char) :=
  if text.length = 36 ∧ [8, 13, 18, 23].all fun i => text[i]? == some '-' then
    some (text.take 8 ++ (text.drop 9).take 4 ++ (text.drop 14).take 4 ++
      (text.drop 19).take 4 ++ text.drop 24)
  else none

def chars (id : Uuid) : List Char := hyphenate (hexadecimal 32 id.value)

def text (id : Uuid) : String := String.ofList id.chars

def ofSimple? (digits : List Char) : Option Uuid :=
  if digits.length = 32 then (natOfHexadecimal? digits).bind ofNat? else none

def ofHyphenated? (text : List Char) : Option Uuid := (withoutHyphens? text).bind ofSimple?

/-- The letters before the hyphenated form in a uniform resource name. -/
def urnScheme : List Char := ['u', 'r', 'n', ':', 'u', 'u', 'i', 'd', ':']

/-- Read any accepted form. The wrapped forms hold the hyphenated one. -/
def ofChars? (text : List Char) : Option Uuid :=
  if text.length = 32 then ofSimple? text
  else if text.length = 36 then ofHyphenated? text
  else if text.length = 38 ∧ text.head? = some '\x7b' ∧ text.getLast? = some '\x7d' then
    ofHyphenated? (text.drop 1).dropLast
  else if foldCase (text.take 9) = urnScheme then ofHyphenated? (text.drop 9)
  else none

def ofText? (text : String) : Option Uuid := ofChars? text.toList

end Uuid

end ServiceDesk
