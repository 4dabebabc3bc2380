import ServiceDesk.Time.Calendar

/-!
Instants of universal time with nanoseconds, and the duration by which a clock is moved on. A
leap second is second sixty of a minute: it shares the count of the second before it and has
between one and two thousand million nanoseconds.
-/

namespace ServiceDesk.Time

abbrev billion : Nat := 1000000000

structure Instant where
  /-- Seconds since the start of 1970. -/
  seconds : Int
  nanos : Nat
  within : nanos < billion ∨ (nanos < 2 * billion ∧ seconds % 60 = 59)
  deriving DecidableEq, Repr

namespace Instant

def ofParts? (seconds : Int) (nanos : Nat) : Option Instant :=
  if h : nanos < billion ∨ (nanos < 2 * billion ∧ seconds % 60 = 59) then
    some ⟨seconds, nanos, h⟩
  else none

/-- Earlier or the same: by seconds, then by nanoseconds. -/
def Le (a b : Instant) : Prop :=
  a.seconds < b.seconds ∨ (a.seconds = b.seconds ∧ a.nanos ≤ b.nanos)

instance : LE Instant := ⟨Le⟩

instance (a b : Instant) : Decidable (a ≤ b) :=
  inferInstanceAs (Decidable (a.seconds < b.seconds ∨ (a.seconds = b.seconds ∧ a.nanos ≤ b.nanos)))

def latest (a b : Instant) : Instant := if a ≤ b then b else a

def isLeap (instant : Instant) : Bool := decide (billion ≤ instant.nanos)

def date (instant : Instant) : Date := Date.ofDay (instant.seconds / 86400 + epochDay)

/-- Seconds since midnight, which do not count a leap second. -/
def secondOfDay (instant : Instant) : Nat := (instant.seconds % 86400).toNat

/-- Nanoseconds since the start of the second, a leap second being one of its own. -/
def fraction (instant : Instant) : Nat := instant.nanos % billion

/-- The years that a clock can show. -/
def clockYears : Int × Int := (-262143, 262142)

def onClock (instant : Instant) : Bool :=
  decide (clockYears.1 ≤ instant.date.year) && decide (instant.date.year ≤ clockYears.2)

end Instant

/-- A signed span of time: whole seconds, rounded down, and nanoseconds on top of them. -/
structure Duration where
  seconds : Int
  nanos : Nat
  nanos_lt : nanos < billion

namespace Duration

def ofParts? (seconds : Int) (nanos : Nat) : Option Duration :=
  if h : nanos < billion then some ⟨seconds, nanos, h⟩ else none

/-- Whole seconds, rounded towards zero. -/
def whole (span : Duration) : Int :=
  if span.seconds < 0 ∧ 0 < span.nanos then span.seconds + 1 else span.seconds

/-- What is left beside the whole seconds, in nanoseconds and of the same sign. -/
def part (span : Duration) : Int :=
  if span.seconds < 0 ∧ 0 < span.nanos then (span.nanos : Int) - billion else span.nanos

end Duration

namespace Instant

/-- Ordinary addition, with a carry between nanoseconds and seconds. -/
def plainSum (seconds nanos : Int) (span : Duration) : Option Instant :=
  let total := nanos + span.part
  ofParts? (seconds + span.whole + total / billion) (total % billion).toNat

/-- Move on by a span. Inside a leap second a span below one second stays in it as long as there
is room; any other span leaves it, forwards as if from the second before and backwards as if from
the second after. -/
def sum (instant : Instant) (span : Duration) : Option Instant :=
  if instant.isLeap then
    let beyond := (instant.nanos : Int) - billion
    if 0 < span.whole ∨ (0 < span.part ∧ 2 * (billion : Int) ≤ instant.nanos + span.part) then
      plainSum instant.seconds beyond span
    else if span.whole < 0 then plainSum (instant.seconds + 1) beyond span
    else ofParts? instant.seconds (instant.nanos + span.part).toNat
  else plainSum instant.seconds instant.nanos span

/-- Move a clock on by a span, unless it would leave the years that it can show. -/
def advance? (instant : Instant) (span : Duration) : Option Instant :=
  (instant.sum span).filter onClock

end Instant

end ServiceDesk.Time
