import ServiceDesk.Binary64
import ServiceDesk.Text.Digits

/-!
Decimal numerals as they may be written into a column of integers: with blanks around them, with a
sign, a point and a power of ten, each of which may be missing. Such a numeral counts as an integer
if it is one of sixty-four bits as it stands, or if the binary64 number nearest to it is one.
-/

namespace ServiceDesk.Text

structure Numeral where
  negative : Bool
  /-- The digits before and behind the point as one natural number. -/
  digits : Nat
  /-- The power of ten by which the digits are scaled. -/
  scale : Int
  /-- Whether it has neither a point nor a power of ten. -/
  plain : Bool
  deriving DecidableEq, Repr

/-- The blanks that may stand around a numeral. -/
def isMargin (c : Char) : Bool := c == ' ' || (decide ('\t' ≤ c) && decide (c ≤ '\r'))

def withoutMargins (text : List Char) : List Char :=
  ((text.dropWhile isMargin).reverse.dropWhile isMargin).reverse

namespace Numeral

def power? : List Char → Option Int
  | [] => none
  | c :: rest => if c = 'e' ∨ c = 'E' then intOfDecimal? rest else none

/-- A numeral behind its sign. There must be a digit before or behind the point. -/
def ofUnsigned? (negative : Bool) (text : List Char) : Option Numeral :=
  let whole := text.takeWhile isAsciiDigit
  let rest := text.dropWhile isAsciiDigit
  let pointed := rest.head? == some '.'
  let fraction := if pointed then (rest.drop 1).takeWhile isAsciiDigit else []
  let rest := if pointed then (rest.drop 1).dropWhile isAsciiDigit else rest
  let digits := whole ++ fraction
  if digits.isEmpty then none
  else if rest.isEmpty then
    some ⟨negative, ofDecimalDigits digits, -(fraction.length : Int), !pointed⟩
  else
    (power? rest).map fun power =>
      ⟨negative, ofDecimalDigits digits, power - fraction.length, false⟩

def ofText? (text : List Char) : Option Numeral :=
  match withoutMargins text with
  | '-' :: rest => ofUnsigned? true rest
  | '+' :: rest => ofUnsigned? false rest
  | rest => ofUnsigned? false rest

/-- The integer that a numeral stands for. One that has to be rounded must lie strictly between
the least and the greatest integer of sixty-four bits. -/
def toInt? (numeral : Numeral) : Option Int :=
  let exact := if numeral.negative then -(numeral.digits : Int) else numeral.digits
  if numeral.plain ∧ isInt64 exact then some exact
  else
    (Binary64.ofDecimal numeral.negative numeral.digits numeral.scale).toInt?.filter fun value =>
      isInt64 value && value != -0x8000000000000000

end Numeral

def integerOfNumeral? (text : List Char) : Option Int := (Numeral.ofText? text).bind Numeral.toInt?

end ServiceDesk.Text
