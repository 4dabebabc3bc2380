import ServiceDesk.Binary64
import ServiceDesk.Time.Rfc3339

/-!
The values of TOML that are not made of others, and their bare written forms: truth values,
integers of sixty-four bits, binary64 numbers, and dates and times, which are kept as normal text.
-/

namespace ServiceDesk.Toml

open Text Time

inductive Scalar where
  | text (value : String)
  | integer (value : Int)
  | real (value : Binary64)
  | bool (value : Bool)
  /-- A date, a time of day, or both, with or without an offset. -/
  | moment (form : String)
  deriving DecidableEq, Repr

namespace Scalar

/-- Digits among which single underscores may stand, without them. -/
def ungrouped? (isDigit : Char → Bool) : List Char → Option (List Char)
  | [] => none
  | [c] => if isDigit c then some [c] else none
  | c :: '_' :: rest =>
    if isDigit c then (ungrouped? isDigit rest).map (c :: ·) else none
  | c :: rest => if isDigit c then (ungrouped? isDigit rest).map (c :: ·) else none

def splitSign : List Char → Bool × List Char
  | '-' :: rest => (true, rest)
  | '+' :: rest => (false, rest)
  | rest => (false, rest)

/-- The digits of a decimal integer. Only zero itself begins with the digit zero. -/
def wholeDigits? (form : List Char) : Option (List Char) :=
  match ungrouped? isAsciiDigit form with
  | some ['0'] => some ['0']
  | some ('0' :: _) => none
  | digits => digits

/-- An integer must fit sixty-four bits with a sign. -/
def integerOf? (value : Int) : Option Scalar :=
  if isInt64 value then some (.integer value) else none

def ofDigits? (base : Nat) (form : List Char) : Option Nat := do
  let digits ← ungrouped? (fun c => (hexValue? c).any (· < base)) form
  some (digits.foldl (fun value c => base * value + (hexValue? c).getD 0) 0)

def integer? : List Char → Option Scalar
  | '0' :: 'x' :: digits => (ofDigits? 16 digits).bind fun n => integerOf? n
  | '0' :: 'o' :: digits => (ofDigits? 8 digits).bind fun n => integerOf? n
  | '0' :: 'b' :: digits => (ofDigits? 2 digits).bind fun n => integerOf? n
  | form => do
    let (negative, form) := splitSign form
    let digits ← wholeDigits? form
    let size : Int := ofDecimalDigits digits
    integerOf? (if negative then -size else size)

def fraction? : List Char → Option (List Char)
  | [] => some []
  | '.' :: rest => ungrouped? isAsciiDigit rest
  | _ => none

def power? : List Char → Option Int
  | [] => some 0
  | _ :: rest => do
    let (negative, form) := splitSign rest
    let digits ← ungrouped? isAsciiDigit form
    let size : Int := ofDecimalDigits digits
    some (if negative then -size else size)

/-- A number with a point or a power of ten. One that is rounded to positive infinity is
refused. -/
def decimal? (form : List Char) : Option Scalar := do
  let (negative, form) := splitSign form
  let isMark (c : Char) : Bool := c == 'e' || c == 'E'
  let front := form.takeWhile fun c => !isMark c
  let back := form.dropWhile fun c => !isMark c
  let whole ← wholeDigits? (front.takeWhile (· != '.'))
  let fraction ← fraction? (front.dropWhile (· != '.'))
  let power ← power? back
  if fraction.isEmpty ∧ back.isEmpty then none
  else
    match Binary64.ofDecimal negative (ofDecimalDigits (whole ++ fraction))
      (power - fraction.length) with
    | .infinite false => none
    | value => some (.real value)

/-- Infinity and the number that is none, with a sign or without. -/
def special? (form : List Char) : Option Scalar :=
  let (negative, form) := splitSign form
  if form = ['i', 'n', 'f'] then some (.real (.infinite negative))
  else if form = ['n', 'a', 'n'] then some (.real .notANumber)
  else none

/-- How far a written moment may go: its last hour, and the hours and minutes of its offset. -/
structure MomentRange where
  lastHour : Nat
  offsetFits : Nat → Nat → Bool

/-- A bare moment stays within a day, and so does its offset. -/
def bareRange : MomentRange := ⟨23, fun hours minutes => hours ≤ 23 && minutes ≤ 59⟩

/-- A moment in quotes may have the hour 24, and an offset of a whole day in any minutes. -/
def quotedRange : MomentRange := ⟨24, fun hours minutes => hours * 60 + minutes ≤ 1440⟩

/-- The normal form of a time of day and what follows it. -/
def timeOfDay? (range : MomentRange) (form : List Char) : Option (List Char × List Char) := do
  let ((second, leap), form) ← takeClock range.lastHour form
  let (nanos, form) ← takeFraction form
  let digits := ((decimal 9 nanos).reverse.dropWhile (· == '0')).reverse
  some (Instant.clockChars second leap ++ (if digits.isEmpty then [] else '.' :: digits), form)

/-- The normal form of an offset that ends a written form, or nothing where it is missing. -/
def offset? (range : MomentRange) : List Char → Option (List Char)
  | [] => some []
  | ['Z'] | ['z'] => some ['Z']
  | sign :: form => do
    let (hours, form) ← takeDecimal 2 form
    let form ← takeChar ':' form
    let (minutes, form) ← takeDecimal 2 form
    if (sign = '+' ∨ sign = '-') ∧ form = [] ∧ range.offsetFits hours minutes then
      let total := hours * 60 + minutes
      some ((if sign = '-' ∧ 0 < total then '-' else '+') ::
        (decimal 2 (total / 60) ++ ':' :: decimal 2 (total % 60)))
    else none

/-- A date and what may follow it: nothing, a time of day, or a time of day with an offset. -/
def dateAndTime? (range : MomentRange) (form : List Char) : Option (List Char) := do
  let (date, form) ← takeDate form
  if form.isEmpty then some (Instant.dateChars date)
  else
    let form ← takeDateMark form
    let (time, form) ← timeOfDay? range form
    let offset ← offset? range form
    some (Instant.dateChars date ++ 'T' :: (time ++ offset))

def moment? (range : MomentRange) (form : List Char) : Option Scalar :=
  match dateAndTime? range form with
  | some normal => some (.moment (String.ofList normal))
  | none =>
    match timeOfDay? range form with
    | some (normal, []) => some (.moment (String.ofList normal))
    | _ => none

def ofBare? (form : List Char) : Option Scalar :=
  if form = ['t', 'r', 'u', 'e'] then some (.bool true)
  else if form = ['f', 'a', 'l', 's', 'e'] then some (.bool false)
  else (moment? bareRange form).or ((integer? form).or ((decimal? form).or (special? form)))

end Scalar

end ServiceDesk.Toml
