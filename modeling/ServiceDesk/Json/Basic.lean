import ServiceDesk.Binary64

/-!
JSON values. A number keeps the form in which it was written, because a reader of integers takes
one that is written without a point and without an exponent and refuses every other.
-/

namespace ServiceDesk

/-- A decimal number: its sign, its digits as one natural number, and the power of ten by which
they are scaled. -/
structure Json.Number where
  negative : Bool
  significand : Nat
  exponent : Int
  /-- Whether it is written without a point and without an exponent. -/
  plain : Bool
  deriving DecidableEq, Repr

inductive Json where
  | null
  | bool (value : Bool)
  | number (value : Json.Number)
  | text (value : String)
  | list (items : List Json)
  | record (fields : List (String × Json))
  deriving Repr

namespace Json

def Number.ofInt (value : Int) : Number := ⟨decide (value < 0), value.natAbs, 0, true⟩

/-- The integer that a number writes. Minus zero is not one. -/
def Number.toInt? (number : Number) : Option Int :=
  if number.plain ∧ ¬(number.negative ∧ number.significand = 0) then
    some (if number.negative then -(number.significand : Int) else number.significand)
  else none

/-- The longest run of leading digits that is below 2 to the 64, which has twenty digits itself,
and the power of ten by which it is scaled. -/
def Number.leadingDigits (number : Number) : Nat × Int :=
  let excess := (Nat.toDigits 10 number.significand).length - 20
  let digits := number.significand / Nat.pow 10 excess
  if digits < 0x10000000000000000 then (digits, number.exponent + excess)
  else (digits / 10, number.exponent + excess + 1)

/-- Whether a reader of binary64 numbers takes the number. It multiplies the leading digits by a
power of ten, and rounds both factors and the product; only a product out of range is refused. -/
def Number.fitsBinary64 (number : Number) : Bool :=
  let (digits, scale) := number.leadingDigits
  if digits = 0 ∨ scale < 0 then true
  else if 308 < scale then false
  else
    match Binary64.nearest? digits 0, Binary64.nearest? 1 scale with
    | some factor, some power => (Binary64.product? factor power).isSome
    | _, _ => false

def ofNat (value : Nat) : Json := .number (.ofInt value)

def ofOption {α : Type} (encode : α → Json) : Option α → Json
  | none => .null
  | some value => encode value

/-- The last value under a key of a record. -/
def field? (json : Json) (key : String) : Option Json :=
  match json with
  | .record fields => (fields.reverse.find? (·.1 == key)).map (·.2)
  | _ => none

def field (json : Json) (key : String) : Json := (json.field? key).getD .null

def toText? : Json → Option String
  | .text value => some value
  | _ => none

def toBool? : Json → Option Bool
  | .bool value => some value
  | _ => none

def toInt? : Json → Option Int
  | .number value => value.toInt?
  | _ => none

def nullable? {α : Type} (decode : Json → Option α) : Json → Option (Option α)
  | .null => some none
  | json => (decode json).map some

end Json

end ServiceDesk
