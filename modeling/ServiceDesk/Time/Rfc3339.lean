import ServiceDesk.Text.Digits
import ServiceDesk.Time.Instant

/-!
Timestamps as text, in the internet profile of ISO 8601. They are written in universal time with
a capital T and Z. They are read with any offset of less than a day, with a blank or a small t
before the time, and with any number of fraction digits, of which nine count.
-/

namespace ServiceDesk.Time

open Text

inductive Precision where
  /-- Always six. -/
  | micro
  /-- None, three, six or nine, whichever is the first that loses nothing. -/
  | shortest
  deriving DecidableEq, Repr

/-- Four digits for the years 0 to 9999, else a sign and at least four digits. -/
def yearChars (year : Int) : List Char :=
  if 0 ≤ year ∧ year ≤ 9999 then decimal 4 year.toNat
  else
    let digits := Nat.toDigits 10 year.natAbs
    (if year < 0 then '-' else '+') :: (List.replicate (4 - digits.length) '0' ++ digits)

def fractionChars (precision : Precision) (nanos : Nat) : List Char :=
  match precision with
  | .micro => '.' :: decimal 6 (nanos / 1000)
  | .shortest =>
    if nanos = 0 then []
    else if nanos % 1000000 = 0 then '.' :: decimal 3 (nanos / 1000000)
    else if nanos % 1000 = 0 then '.' :: decimal 6 (nanos / 1000)
    else '.' :: decimal 9 nanos

namespace Instant

def dateChars (date : Date) : List Char :=
  yearChars date.year ++ '-' :: (decimal 2 date.month ++ '-' :: decimal 2 date.day)

def clockChars (secondOfDay : Nat) (leap : Bool) : List Char :=
  decimal 2 (secondOfDay / 3600) ++ ':' :: (decimal 2 (secondOfDay / 60 % 60) ++
    ':' :: decimal 2 (secondOfDay % 60 + if leap then 1 else 0))

def chars (precision : Precision) (instant : Instant) : List Char :=
  dateChars instant.date ++ 'T' :: (clockChars instant.secondOfDay instant.isLeap ++
    (fractionChars precision instant.fraction ++ ['Z']))

def text (precision : Precision) (instant : Instant) : String :=
  String.ofList (instant.chars precision)

end Instant

def takeChar (c : Char) : List Char → Option (List Char)
  | [] => none
  | d :: rest => if d = c then some rest else none

def takeDate (text : List Char) : Option (Date × List Char) := do
  let (year, text) ← takeDecimal 4 text
  let text ← takeChar '-' text
  let (month, text) ← takeDecimal 2 text
  let text ← takeChar '-' text
  let (day, text) ← takeDecimal 2 text
  let date : Date := ⟨year, month, day⟩
  if date.isValid then some (date, text) else none

/-- The second of the day, whose hour is at most `lastHour`, and whether it is a leap second. -/
def takeClock (lastHour : Nat) (text : List Char) : Option ((Nat × Bool) × List Char) := do
  let (hour, text) ← takeDecimal 2 text
  let text ← takeChar ':' text
  let (minute, text) ← takeDecimal 2 text
  let text ← takeChar ':' text
  let (second, text) ← takeDecimal 2 text
  if hour ≤ lastHour ∧ minute ≤ 59 ∧ second ≤ 60 then
    let leap := second == 60
    some ((hour * 3600 + minute * 60 + (if leap then 59 else second), leap), text)
  else none

/-- The nanoseconds after a point: at least one digit, and those past the ninth are dropped. -/
def takeFraction : List Char → Option (Nat × List Char)
  | '.' :: text =>
    let digits := text.takeWhile isAsciiDigit
    if digits.isEmpty then none
    else
      let kept := digits.take 9
      some (ofDecimalDigits kept * Nat.pow 10 (9 - kept.length), text.dropWhile isAsciiDigit)
  | text => some (0, text)

def signOf? : Char → Option Int
  | '+' => some 1
  | '-' => some (-1)
  | '\u2212' => some (-1)
  | _ => none

/-- The seconds by which local time is ahead, from the whole rest of a text. -/
def offsetOf? : List Char → Option Int
  | [] => none
  | c :: text =>
    if (c = 'Z' ∨ c = 'z') ∧ text = [] then some 0
    else do
      let sign ← signOf? c
      let (hours, text) ← takeDecimal 2 text
      let text ← takeChar ':' text
      let (minutes, text) ← takeDecimal 2 text
      if hours ≤ 23 ∧ minutes ≤ 59 ∧ text = [] then some (sign * (hours * 3600 + minutes * 60))
      else none

def takeDateMark : List Char → Option (List Char)
  | c :: text => if c = 'T' ∨ c = 't' ∨ c = ' ' then some text else none
  | [] => none

namespace Instant

def ofChars? (text : List Char) : Option Instant := do
  let (date, text) ← takeDate text
  let text ← takeDateMark text
  let ((second, leap), text) ← takeClock 23 text
  let (nanos, text) ← takeFraction text
  let offset ← offsetOf? text
  ofParts? ((date.toDay - epochDay) * 86400 + second - offset)
    (nanos + if leap then billion else 0)

def ofText? (text : String) : Option Instant := ofChars? text.toList

end Instant

end ServiceDesk.Time
