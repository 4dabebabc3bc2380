/-!
Numbers of the binary64 format. A decimal numeral and a product are rounded to the nearest of them,
a tie to the even one. A number is written with the fewest digits that are rounded back to it.
-/

namespace ServiceDesk

inductive Binary64 where
  /-- A natural number below 2 to the 53, scaled by a power of two from -1074 to 971. -/
  | finite (negative : Bool) (significand : Nat) (exponent : Int)
  | infinite (negative : Bool)
  | notANumber
  deriving DecidableEq, Repr

namespace Binary64

/-- The natural number nearest to a quotient, a tie going to the even one. -/
def roundedQuotient (dividend divisor : Nat) : Nat :=
  let whole := dividend / divisor
  let rest := dividend % divisor
  if 2 * rest < divisor then whole
  else if divisor < 2 * rest then whole + 1
  else whole + whole % 2

/-- The greatest power of two that is not above a positive quotient. -/
def magnitude (dividend divisor : Nat) : Int :=
  let guess := (Nat.log2 dividend : Int) - Nat.log2 divisor
  if dividend * Nat.pow 2 (-guess).toNat < divisor * Nat.pow 2 guess.toNat then guess - 1
  else guess

/-- The number nearest to a positive quotient, as significand and exponent, if it is finite. -/
def nearestQuotient? (dividend divisor : Nat) : Option (Nat × Int) :=
  let power := max (magnitude dividend divisor - 52) (-1074)
  let rounded :=
    roundedQuotient (dividend * Nat.pow 2 (-power).toNat) (divisor * Nat.pow 2 power.toNat)
  let result :=
    if rounded = 0x20000000000000 then (0x10000000000000, power + 1) else (rounded, power)
  if 971 < result.2 then none else some result

def nearest? (digits : Nat) (scale : Int) : Option (Nat × Int) :=
  nearestQuotient? (digits * Nat.pow 10 scale.toNat) (Nat.pow 10 (-scale).toNat)

def product? (x y : Nat × Int) : Option (Nat × Int) :=
  let power := x.2 + y.2
  nearestQuotient? (x.1 * y.1 * Nat.pow 2 power.toNat) (Nat.pow 2 (-power).toNat)

/-- The number nearest to a decimal. Decimals that are plainly out of range are not computed. -/
def ofDecimal (negative : Bool) (digits : Nat) (scale : Int) : Binary64 :=
  let size := ((Nat.toDigits 10 digits).length : Int) + scale
  if digits = 0 ∨ size < -330 then .finite negative 0 (-1074)
  else if 330 < size then .infinite negative
  else
    match nearest? digits scale with
    | some (significand, exponent) => .finite negative significand exponent
    | none => .infinite negative

def exactDecimal (significand : Nat) (exponent : Int) : Nat × Int :=
  if 0 ≤ exponent then (significand * Nat.pow 2 exponent.toNat, 0)
  else (significand * Nat.pow 5 (-exponent).toNat, exponent)

/-- Of the two decimals without the last `cut` digits that lie next to a number, the nearer one
that is rounded back to it. Of two that are as near as each other, the greater one is taken. -/
def shortened? (significand : Nat) (exponent : Int) (cut : Nat) : Option (Nat × Int) :=
  let exact := exactDecimal significand exponent
  let scale := exact.2 + cut
  let unit := Nat.pow 10 cut
  let below := exact.1 / unit
  let candidates :=
    if 2 * (exact.1 % unit) < unit then [below, below + 1] else [below + 1, below]
  (candidates.find? fun digits => nearest? digits scale == some (significand, exponent)).map
    (·, scale)

/-- The decimal with the fewest digits that is rounded back to a number other than zero. -/
def shortest (significand : Nat) (exponent : Int) : Nat × Int :=
  let exact := exactDecimal significand exponent
  let length := (Nat.toDigits 10 exact.1).length
  ((List.range 17).findSome? fun kept =>
    shortened? significand exponent (length - (kept + 1))).getD exact

/-- The numeral of a decimal, with a point where it has fraction digits, and never an exponent. -/
def numeral (digits : Nat) (scale : Int) : List Char :=
  let chars := Nat.toDigits 10 digits
  let places := (-scale).toNat
  let padded := List.replicate (places + 1 - chars.length) '0' ++ chars
  let whole := padded.take (padded.length - places) ++ List.replicate scale.toNat '0'
  let fraction := ((padded.drop (padded.length - places)).reverse.dropWhile (· == '0')).reverse
  if fraction.isEmpty then whole else whole ++ '.' :: fraction

def text : Binary64 → String
  | .finite negative significand exponent =>
    let decimal := if significand = 0 then (0, 0) else shortest significand exponent
    String.ofList ((if negative then ['-'] else []) ++ numeral decimal.1 decimal.2)
  | .infinite negative => if negative then "-inf" else "inf"
  | .notANumber => "NaN"

/-- The natural number nearest to the number, a half going up and negative numbers to zero. There
is none for positive infinity. -/
def toNat? : Binary64 → Option Nat
  | .finite negative significand exponent =>
    if negative then some 0
    else if 0 ≤ exponent then some (significand * Nat.pow 2 exponent.toNat)
    else
      let divisor := Nat.pow 2 (-exponent).toNat
      some ((2 * significand + divisor) / (2 * divisor))
  | .infinite negative => if negative then some 0 else none
  | .notANumber => some 0

def toInt? : Binary64 → Option Int
  | .finite negative significand exponent =>
    let divisor := Nat.pow 2 (-exponent).toNat
    let size := significand * Nat.pow 2 exponent.toNat
    if size % divisor = 0 then
      let whole : Int := size / divisor
      some (if negative then -whole else whole)
    else none
  | _ => none

end Binary64

end ServiceDesk
