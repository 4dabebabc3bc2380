import Mathlib.Data.String.Basic
import ServiceDesk.Proofs.Time.Timestamps

/-!
Timestamps sort as text. Numerals of one width are in the order of their numbers, whatever follows
them, and a timestamp is written from the year down to the microsecond in numerals of fixed width.
So of two timestamps without a sign the earlier one has the smaller text, and they have the same text
just if they fall into the same microsecond.
-/

namespace ServiceDesk.Text

theorem decimalDigit_lt {a b : Nat} (h : a < b) (hb : b < 10) : decimalDigit a < decimalDigit b := by
  have hall : ∀ x y : Fin 10, x < y → decimalDigit x.val < decimalDigit y.val := by decide
  exact hall ⟨a, h.trans hb⟩ ⟨b, hb⟩ h

/-- The smaller of two numbers has the smaller numeral, whatever follows. -/
theorem decimal_append_lt {width a b : Nat} (h : a < b) (hb : b < Nat.pow 10 width)
    (s t : List Char) : decimal width a ++ s < decimal width b ++ t := by
  induction width generalizing a b s t with
  | zero =>
      have hone : b < 1 := hb
      omega
  | succ width ih =>
      rw [decimal, decimal, List.append_assoc, List.append_assoc]
      by_cases hhead : a / 10 = b / 10
      · rw [hhead]
        apply List.append_left_lt
        apply List.cons_lt_cons_iff.2
        exact Or.inl (decimalDigit_lt (by omega) (Nat.mod_lt b (by decide)))
      · apply ih
        · omega
        · exact (Nat.div_lt_iff_lt_mul (by decide)).2 hb

/-- Two numerals that are the same, or in the order of their numbers. -/
theorem decimal_append_lt_of_le {width a b : Nat} (h : a ≤ b) (hb : b < Nat.pow 10 width)
    {s t : List Char} (hrest : a = b → s < t) : decimal width a ++ s < decimal width b ++ t := by
  by_cases heq : a = b
  · rw [heq]
    exact List.append_left_lt (hrest heq)
  · exact decimal_append_lt (by omega) hb s t

end ServiceDesk.Text

namespace ServiceDesk.Time

open Text

/-! ### The order of dates -/

theorem daysBeforeYear_mono {year later : Int} (h : year ≤ later) :
    daysBeforeYear year ≤ daysBeforeYear later := by
  simp only [daysBeforeYear]
  omega

theorem yearOfDay_mono {day later : Int} (h : day ≤ later) : yearOfDay day ≤ yearOfDay later := by
  by_contra hyears
  have hstart := yearOfDay_le day
  have hend := lt_yearOfDay_succ later
  have hmono : daysBeforeYear (yearOfDay later + 1) ≤ daysBeforeYear (yearOfDay day) :=
    daysBeforeYear_mono (by omega)
  omega

/-- More days lead to a later month, or further into the same one. -/
theorem splitMonths_lt (lengths : List Nat) {days more : Nat} (h : days < more) :
    (splitMonths lengths days).1 < (splitMonths lengths more).1 ∨
      ((splitMonths lengths days).1 = (splitMonths lengths more).1 ∧
        (splitMonths lengths days).2 < (splitMonths lengths more).2) := by
  induction lengths generalizing days more with
  | nil => exact Or.inr ⟨rfl, h⟩
  | cons length rest ih =>
      rw [splitMonths, splitMonths]
      by_cases hmore : more < length
      · rw [if_pos (h.trans hmore), if_pos hmore]
        exact Or.inr ⟨rfl, h⟩
      · by_cases hdays : days < length
        · rw [if_pos hdays, if_neg hmore]
          exact Or.inl (Nat.zero_lt_succ _)
        · rw [if_neg hdays, if_neg hmore]
          have hrest := ih (show days - length < more - length by omega)
          dsimp only
          omega

def Date.Before (a b : Date) : Prop :=
  a.year < b.year ∨ (a.year = b.year ∧ (a.month < b.month ∨ (a.month = b.month ∧ a.day < b.day)))

theorem ofDay_before {day later : Int} (h : day < later) :
    (Date.ofDay day).Before (Date.ofDay later) := by
  by_cases hyear : yearOfDay day = yearOfDay later
  · right
    have hdays : dayOfYear day < dayOfYear later := by
      have hstart := yearOfDay_le day
      rw [hyear] at hstart
      simp only [dayOfYear, hyear]
      omega
    have hsplit := splitMonths_lt (monthLengths (yearOfDay later)) hdays
    refine ⟨hyear, ?_⟩
    simp only [Date.ofDay, hyear]
    simp only [dayOfYear, hyear] at hsplit
    omega
  · left
    have hmono := yearOfDay_mono h.le
    show yearOfDay day < yearOfDay later
    omega

/-! ### The order of the written parts -/

namespace Instant

theorem dateChars_append_lt {day later : Int} (h : day < later)
    (hday : 0 ≤ (Date.ofDay day).year) (hlater : (Date.ofDay later).year ≤ 9999) (s t : List Char) :
    dateChars (Date.ofDay day) ++ s < dateChars (Date.ofDay later) ++ t := by
  obtain ⟨hmonth, hday'⟩ := ofDay_lt_hundred later
  have hbefore := ofDay_before h
  have hyears : (Date.ofDay day).year ≤ (Date.ofDay later).year := yearOfDay_mono h.le
  rw [Date.Before] at hbefore
  simp only [dateChars, yearChars, if_pos (show 0 ≤ (Date.ofDay day).year ∧
    (Date.ofDay day).year ≤ 9999 by omega), if_pos (show 0 ≤ (Date.ofDay later).year ∧
    (Date.ofDay later).year ≤ 9999 by omega), List.append_assoc, List.cons_append]
  apply decimal_append_lt_of_le
  · omega
  · show (Date.ofDay later).year.toNat < 10000
    omega
  intro hyear
  apply List.cons_lt_cons_iff.2
  refine Or.inr ⟨rfl, ?_⟩
  apply decimal_append_lt_of_le
  · omega
  · exact hmonth
  intro hmonths
  apply List.cons_lt_cons_iff.2
  refine Or.inr ⟨rfl, ?_⟩
  exact decimal_append_lt (by omega) hday' s t

/-- The later of two seconds of a day has the greater text, a leap second being after the second with
which it shares the count. -/
theorem clockChars_append_lt {second later : Nat} {leap leapLater : Bool}
    (hlater : later < 86400) (hleap : leap = true → second % 60 = 59)
    (h : second < later ∨ (second = later ∧ leap = false ∧ leapLater = true)) (s t : List Char) :
    clockChars second leap ++ s < clockChars later leapLater ++ t := by
  have hseconds : later % 60 + (if leapLater then 1 else 0) < 100 := by split <;> omega
  simp only [clockChars, List.append_assoc, List.cons_append]
  apply decimal_append_lt_of_le
  · omega
  · show later / 3600 < 100
    omega
  intro hhour
  apply List.cons_lt_cons_iff.2
  refine Or.inr ⟨rfl, ?_⟩
  apply decimal_append_lt_of_le
  · omega
  · show later / 60 % 60 < 100
    omega
  intro hminute
  apply List.cons_lt_cons_iff.2
  refine Or.inr ⟨rfl, ?_⟩
  apply decimal_append_lt _ hseconds
  -- In the same minute the earlier second is no leap second: nothing but that would come after it.
  have hplain : leap = false := by
    rcases h with hlt | ⟨_, hfalse, _⟩
    · by_contra htrue
      have := hleap (by simpa using htrue)
      omega
    · exact hfalse
  rcases h with hlt | ⟨heq, _, htrue⟩
  · rw [hplain]
    simp only [Bool.false_eq_true, if_false]
    omega
  · rw [hplain, htrue, heq]
    simp

theorem fractionChars_append_lt {nanos later : Nat} (h : nanos / 1000 < later / 1000)
    (hlater : later < billion) (s t : List Char) :
    fractionChars .micro nanos ++ s < fractionChars .micro later ++ t := by
  simp only [fractionChars, List.cons_append]
  apply List.cons_lt_cons_iff.2
  refine Or.inr ⟨rfl, ?_⟩
  apply decimal_append_lt h
  show later / 1000 < 1000000
  simp only [billion] at hlater
  omega

/-! ### The order of timestamps -/

theorem le_antisymm {a b : Instant} (hab : a ≤ b) (hba : b ≤ a) : a = b := by
  have hparts : a.seconds = b.seconds ∧ a.nanos = b.nanos := by
    rcases hab with hab | ⟨_, hab⟩ <;> rcases hba with hba | ⟨_, hba⟩ <;> omega
  cases a
  cases b
  simpa using hparts

theorem le_total (a b : Instant) : a ≤ b ∨ b ≤ a := by
  show (_ ∨ _) ∨ (_ ∨ _)
  omega

variable {a b : Instant}

/-- The text of an earlier microsecond is smaller. -/
theorem chars_lt (ha : a.IsPlain) (hb : b.IsPlain) (h : a.toMicros ≤ b.toMicros)
    (hne : a.toMicros ≠ b.toMicros) : a.chars .micro < b.chars .micro := by
  have hsecond : b.secondOfDay < 86400 := by
    simp only [secondOfDay]
    omega
  have hfraction : b.fraction < billion := Nat.mod_lt _ (by decide)
  rw [chars, chars]
  by_cases hday : a.seconds / 86400 = b.seconds / 86400
  · rw [date, date, hday]
    apply List.append_left_lt
    apply List.cons_lt_cons_iff.2
    refine Or.inr ⟨rfl, ?_⟩
    rcases h with hearlier | ⟨hsame, hnanos⟩
    · apply clockChars_append_lt hsecond isLeap_secondOfDay
      left
      simp only [toMicros] at hearlier
      simp only [secondOfDay]
      omega
    · -- In the same second a leap second comes last, and else the microseconds decide.
      have hless : a.nanos / 1000 < b.nanos / 1000 := by
        simp only [toMicros, ne_eq, mk.injEq, not_and] at hsame hnanos hne
        have := hne hsame
        omega
      have hseconds : a.secondOfDay = b.secondOfDay := by
        simp only [toMicros] at hsame
        rw [secondOfDay, secondOfDay, hsame]
      by_cases hleap : a.isLeap = b.isLeap
      · rw [hseconds, hleap]
        apply List.append_left_lt
        apply fractionChars_append_lt _ hfraction
        have hawithin := a.within
        have hbwithin := b.within
        simp only [isLeap, decide_eq_decide, billion] at hleap hawithin hbwithin
        simp only [fraction, billion]
        omega
      · apply clockChars_append_lt hsecond isLeap_secondOfDay
        right
        simp only [isLeap, decide_eq_decide] at hleap
        simp only [isLeap, decide_eq_false_iff_not, decide_eq_true_eq]
        omega
  · rcases h with hearlier | ⟨hsame, _⟩
    · apply dateChars_append_lt _ ha.1 hb.2
      simp only [toMicros] at hearlier
      omega
    · exact absurd (congrArg (· / 86400) hsame) hday

end Instant

end ServiceDesk.Time

namespace ServiceDesk

open Time

variable {a b : Instant}

theorem encodeInstant_lt (ha : a.IsPlain) (hb : b.IsPlain) (h : a.toMicros ≤ b.toMicros)
    (hne : a.toMicros ≠ b.toMicros) : encodeInstant a < encodeInstant b := by
  rw [String.lt_iff_toList_lt, encodeInstant, encodeInstant, Instant.text, Instant.text,
    String.toList_ofList, String.toList_ofList]
  exact Instant.chars_lt ha hb h hne

/-- Timestamps have the same text just if they fall into the same microsecond. -/
theorem encodeInstant_inj (ha : a.IsPlain) (hb : b.IsPlain) :
    encodeInstant a = encodeInstant b ↔ a.toMicros = b.toMicros := by
  constructor
  · intro h
    have hread := decodeInstant_encodeInstant a
    rw [h, decodeInstant_encodeInstant b, if_pos ha, if_pos hb] at hread
    exact (Except.ok.inj hread).symm
  · intro h
    rw [← encodeInstant_toMicros a, h, encodeInstant_toMicros]

/-- Texts of timestamps are in the order of their microseconds. -/
theorem encodeInstant_le_iff (ha : a.IsPlain) (hb : b.IsPlain) :
    encodeInstant a ≤ encodeInstant b ↔ a.toMicros ≤ b.toMicros := by
  by_cases hsame : a.toMicros = b.toMicros
  · rw [(encodeInstant_inj ha hb).2 hsame, hsame]
    exact iff_of_true (le_refl _) (Instant.le_refl _)
  · rcases Instant.le_total a.toMicros b.toMicros with hle | hle
    · exact iff_of_true (le_of_lt (encodeInstant_lt ha hb hle hsame)) hle
    · have hlt := encodeInstant_lt hb ha hle (Ne.symm hsame)
      exact iff_of_false (not_le_of_gt hlt) fun hother => hsame (Instant.le_antisymm hother hle)

theorem length_encodeInstant (h : a.IsPlain) : (encodeInstant a).length = 27 := by
  have hyear : yearChars a.date.year = Text.decimal 4 a.date.year.toNat := if_pos h
  rw [encodeInstant, Instant.text, String.length_ofList]
  simp [Instant.chars, Instant.dateChars, Instant.clockChars, fractionChars, hyear,
    Text.length_decimal]

/-- Of two timestamps of the years 0 to 9999, the later one reads back cut to whole microseconds, both
have texts of the same length, and their texts are in the same order as they are: the same text stands
for the same microsecond and for nothing else. -/
theorem timestamps_sort_as_text (ha : a.IsPlain) (hb : b.IsPlain) (h : a ≤ b) :
    decodeInstant (encodeInstant b) = .ok b.toMicros ∧
    (encodeInstant a).length = (encodeInstant b).length ∧
    encodeInstant a ≤ encodeInstant b ∧
    (encodeInstant a = encodeInstant b ↔ a.toMicros = b.toMicros) := by
  refine ⟨?_, ?_, ?_, encodeInstant_inj ha hb⟩
  · rw [decodeInstant_encodeInstant, if_pos hb]
  · rw [length_encodeInstant ha, length_encodeInstant hb]
  · exact (encodeInstant_le_iff ha hb).2 (Instant.toMicros_le h)

/-- The middle of the leap second at the end of 2016. -/
def Time.Instant.endOf2016 : Instant := ⟨1483228799, 1500000000, by decide⟩

def Time.Instant.startOf2017 : Instant := ⟨1483228800, 0, by decide⟩

/-- A leap second has a text of its own, which comes before that of the next second. -/
theorem timestamps_sort_as_text_leap :
    Instant.endOf2016.IsPlain ∧ Instant.startOf2017.IsPlain ∧
    Instant.endOf2016 ≤ Instant.startOf2017 ∧
    encodeInstant .endOf2016 = "2016-12-31T23:59:60.500000Z" ∧
    encodeInstant .endOf2016 ≤ encodeInstant .startOf2017 ∧
    encodeInstant .endOf2016 ≠ encodeInstant .startOf2017 := by
  have hearly : Instant.endOf2016.IsPlain := by decide
  have hlate : Instant.startOf2017.IsPlain := by decide
  have hle : Instant.endOf2016 ≤ Instant.startOf2017 := by decide
  obtain ⟨_, _, htext, hsame⟩ := timestamps_sort_as_text hearly hlate hle
  refine ⟨hearly, hlate, hle, by decide +kernel, htext, ?_⟩
  rw [ne_eq, hsame]
  decide

end ServiceDesk
