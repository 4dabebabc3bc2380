import ServiceDesk.Text.Ascii

/-!
Decimal and hexadecimal numerals: fixed-width numerals with leading zeros, and reading a run of
digits from the front of a text.
-/

namespace ServiceDesk.Text

def decimalDigit (value : Nat) : Char := Char.ofNat (48 + value)

/-- The last `width` decimal digits of `value`, most significant first. -/
def decimal : Nat → Nat → List Char
  | 0, _ => []
  | width + 1, value => decimal width (value / 10) ++ [decimalDigit (value % 10)]

def hexadecimal : Nat → Nat → List Char
  | 0, _ => []
  | width + 1, value => hexadecimal width (value / 16) ++ [hexDigit (value % 16)]

def shortestHexadecimal (value : Nat) : List Char :=
  match (hexadecimal 8 value).dropWhile (· == '0') with
  | [] => ['0']
  | digits => digits

def ofDecimalDigits (digits : List Char) : Nat :=
  digits.foldl (fun value c => 10 * value + (c.toNat - 48)) 0

def takeDecimal (width : Nat) (text : List Char) : Option (Nat × List Char) :=
  let digits := text.take width
  if digits.length = width ∧ digits.all isAsciiDigit then
    some (ofDecimalDigits digits, text.drop width)
  else none

def natOfDecimal? (text : List Char) : Option Nat :=
  if text.isEmpty then none
  else if text.all isAsciiDigit then some (ofDecimalDigits text)
  else none

def natOfHexadecimal? (digits : List Char) : Option Nat :=
  digits.foldlM (fun value c => (hexValue? c).map (16 * value + ·)) 0

/-- Read a whole text as an integer: an optional sign, then decimal digits. -/
def intOfDecimal? : List Char → Option Int
  | '-' :: digits => (natOfDecimal? digits).map fun n => -(n : Int)
  | '+' :: digits => (natOfDecimal? digits).map fun n => (n : Int)
  | digits => (natOfDecimal? digits).map fun n => (n : Int)

def isInt64 (value : Int) : Bool :=
  decide (-0x8000000000000000 ≤ value) && decide (value < 0x8000000000000000)

def int64OfDecimal? (text : List Char) : Option Int := (intOfDecimal? text).filter isInt64

theorem length_decimal (width value : Nat) : (decimal width value).length = width := by
  induction width generalizing value with
  | zero => rfl
  | succ width ih => simp [decimal, ih]

theorem length_hexadecimal (width value : Nat) : (hexadecimal width value).length = width := by
  induction width generalizing value with
  | zero => rfl
  | succ width ih => simp [hexadecimal, ih]

end ServiceDesk.Text
