import ServiceDesk.Proofs.Text.Numerals
import ServiceDesk.Proofs.Time.Calendar
import ServiceDesk.Store.Row

/-!
Timestamps as they are stored. One of the years 0 to 9999 reads back as the instant it was written
for, cut down to whole microseconds; one of any other year does not read back at all, for its year
is written with a sign.
-/

namespace ServiceDesk.Time

open Text

theorem takeChar_cons (c : Char) (rest : List Char) : takeChar c (c :: rest) = some rest := by
  rw [takeChar, if_pos rfl]

theorem takeWhile_isAsciiDigit_decimal (width value : Nat) {c : Char} (rest : List Char)
    (hc : isAsciiDigit c = false) :
    (decimal width value ++ c :: rest).takeWhile isAsciiDigit = decimal width value ∧
      (decimal width value ++ c :: rest).dropWhile isAsciiDigit = c :: rest := by
  have hdigits : ∀ d ∈ decimal width value, isAsciiDigit d = true :=
    List.all_eq_true.1 (all_isAsciiDigit_decimal width value)
  constructor
  · rw [List.takeWhile_append_of_pos hdigits, List.takeWhile_cons_of_neg (by simp [hc]),
      List.append_nil]
  · rw [List.dropWhile_append_of_pos hdigits, List.dropWhile_cons_of_neg (by simp [hc])]

theorem takeFraction_micro {nanos : Nat} (h : nanos < billion) (rest : List Char) :
    takeFraction (fractionChars .micro nanos ++ 'Z' :: rest) =
      some (nanos / 1000 * 1000, 'Z' :: rest) := by
  obtain ⟨htake, hdrop⟩ := takeWhile_isAsciiDigit_decimal 6 (nanos / 1000) (c := 'Z') rest (by decide)
  have hlength := length_decimal 6 (nanos / 1000)
  have hsmall : nanos / 1000 < 1000000 := by
    simp only [billion] at h
    omega
  have hvalue := ofDecimalDigits_decimal 6 (nanos / 1000) hsmall
  have hkept : (decimal 6 (nanos / 1000)).take 9 = decimal 6 (nanos / 1000) :=
    List.take_of_length_le (by omega)
  have hnonempty : (decimal 6 (nanos / 1000)).isEmpty = false := by
    rw [List.isEmpty_eq_false_iff, ne_eq, ← List.length_eq_zero_iff]
    omega
  have hscale : nanos / 1000 * Nat.pow 10 (9 - 6) = nanos / 1000 * 1000 := rfl
  rw [fractionChars, List.cons_append, takeFraction]
  dsimp only
  rw [htake, hdrop, hnonempty, if_neg Bool.false_ne_true, hkept, hlength, hvalue, hscale]

namespace Instant

/-- In one of the years that are written without a sign. -/
def IsPlain (instant : Instant) : Prop := 0 ≤ instant.date.year ∧ instant.date.year ≤ 9999

instance (instant : Instant) : Decidable instant.IsPlain :=
  inferInstanceAs (Decidable (0 ≤ instant.date.year ∧ instant.date.year ≤ 9999))

/-- Cut down to whole microseconds. -/
def toMicros (instant : Instant) : Instant where
  seconds := instant.seconds
  nanos := instant.nanos / 1000 * 1000
  within := by
    have := instant.within
    omega

theorem IsPlain.toMicros {instant : Instant} (h : instant.IsPlain) : instant.toMicros.IsPlain := h

@[simp]
theorem toMicros_toMicros (instant : Instant) : instant.toMicros.toMicros = instant.toMicros := by
  simp only [Instant.toMicros, Instant.mk.injEq, true_and]
  omega

theorem IsPlain.latest {a b : Instant} (ha : a.IsPlain) (hb : b.IsPlain) : (a.latest b).IsPlain := by
  unfold Instant.latest
  split
  · exact hb
  · exact ha

/-! ### Earlier and later -/

theorem le_refl (instant : Instant) : instant ≤ instant := Or.inr ⟨rfl, Nat.le_refl _⟩

theorem le_trans {a b c : Instant} (hab : a ≤ b) (hbc : b ≤ c) : a ≤ c := by
  rcases hab with hab | ⟨hab, hnanos⟩
  · rcases hbc with hbc | ⟨hbc, _⟩
    · exact Or.inl (Int.lt_trans hab hbc)
    · exact Or.inl (hbc ▸ hab)
  · rcases hbc with hbc | ⟨hbc, hnanos'⟩
    · exact Or.inl (hab ▸ hbc)
    · exact Or.inr ⟨hab.trans hbc, Nat.le_trans hnanos hnanos'⟩

theorem le_latest (a b : Instant) : a ≤ a.latest b := by
  unfold Instant.latest
  split
  · assumption
  · exact le_refl a

theorem toMicros_le {a b : Instant} (h : a ≤ b) : a.toMicros ≤ b.toMicros := by
  rcases h with hseconds | ⟨hseconds, hnanos⟩
  · exact Or.inl hseconds
  · exact Or.inr ⟨hseconds, Nat.mul_le_mul_right 1000 (Nat.div_le_div_right hnanos)⟩

/-! ### What is written and read -/

theorem takeDate_dateChars {day : Int} (h : 0 ≤ (Date.ofDay day).year ∧ (Date.ofDay day).year ≤ 9999)
    (rest : List Char) : takeDate (dateChars (Date.ofDay day) ++ rest) =
      some (Date.ofDay day, rest) := by
  obtain ⟨hmonth, hday⟩ := ofDay_lt_hundred day
  have hvalid := isValid_ofDay day
  have hyear : ((Date.ofDay day).year.toNat : Int) = (Date.ofDay day).year :=
    Int.toNat_of_nonneg h.1
  simp only [dateChars, yearChars, if_pos h, List.append_assoc, List.cons_append, takeDate,
    takeDecimal_decimal 4 _ _ (show (Date.ofDay day).year.toNat < 10000 by omega),
    takeDecimal_decimal 2 _ _ hmonth, takeDecimal_decimal 2 _ _ hday, takeChar_cons,
    Option.bind_eq_bind, Option.bind_some, hyear]
  rw [if_pos hvalid]

theorem takeClock_clockChars (second : Nat) (leap : Bool) (rest : List Char) (h : second < 86400)
    (hleap : leap = true → second % 60 = 59) :
    takeClock 23 (clockChars second leap ++ rest) = some ((second, leap), rest) := by
  have hseconds : second % 60 + (if leap then 1 else 0) < 100 := by split <;> omega
  simp only [clockChars, List.append_assoc, List.cons_append, takeClock,
    takeDecimal_decimal 2 _ _ (show second / 3600 < 100 by omega),
    takeDecimal_decimal 2 _ _ (show second / 60 % 60 < 100 by omega),
    takeDecimal_decimal 2 _ _ hseconds, takeChar_cons,
    Option.bind_eq_bind, Option.bind_some]
  cases leap with
  | true =>
      have := hleap rfl
      simp [this]
      omega
  | false =>
      have : second % 60 < 60 := Nat.mod_lt _ (by decide)
      have hne : second % 60 ≠ 60 := by omega
      simp [hne]
      omega

theorem isLeap_secondOfDay {instant : Instant} (h : instant.isLeap = true) :
    instant.secondOfDay % 60 = 59 := by
  have hwithin := instant.within
  simp only [isLeap, decide_eq_true_eq] at h
  simp only [secondOfDay]
  omega

theorem ofChars?_chars {instant : Instant} (h : instant.IsPlain) :
    ofChars? (instant.chars .micro) = some instant.toMicros := by
  have hsecond : instant.secondOfDay < 86400 := by
    simp only [secondOfDay]
    omega
  have hfraction : instant.fraction < billion := Nat.mod_lt _ (by decide)
  have hmark : ∀ rest, takeDateMark ('T' :: rest) = some rest := fun rest => rfl
  have hzone : offsetOf? ['Z'] = some 0 := rfl
  simp only [chars, ofChars?, date, takeDate_dateChars h, hmark,
    takeClock_clockChars _ _ _ hsecond isLeap_secondOfDay, takeFraction_micro hfraction, hzone,
    toDay_ofDay, Option.bind_eq_bind, Option.bind_some]
  have hseconds : (instant.seconds / 86400 + epochDay - epochDay) * 86400 + instant.secondOfDay - 0 =
      instant.seconds := by
    simp only [secondOfDay]
    omega
  have hnanos : instant.fraction / 1000 * 1000 + (if instant.isLeap then billion else 0) =
      instant.toMicros.nanos := by
    have hwithin := instant.within
    simp only [fraction, isLeap, decide_eq_true_eq, toMicros, billion] at hwithin ⊢
    split <;> omega
  rw [hseconds, hnanos, ofParts?]
  exact dif_pos instant.toMicros.within

/-- The year of any other timestamp starts with a sign, where a digit is expected. -/
theorem ofChars?_chars_of_not_isPlain {instant : Instant} (h : ¬instant.IsPlain) :
    ofChars? (instant.chars .micro) = none := by
  obtain ⟨sign, digits, hsign, hyear⟩ : ∃ sign digits, isAsciiDigit sign = false ∧
      yearChars instant.date.year = sign :: digits := by
    rw [yearChars, if_neg (show ¬(0 ≤ instant.date.year ∧ instant.date.year ≤ 9999) from h)]
    dsimp only
    split
    · exact ⟨'-', _, by decide, rfl⟩
    · exact ⟨'+', _, by decide, rfl⟩
  have htake : ∀ rest, takeDecimal 4 (sign :: rest) = none := by
    intro rest
    rw [takeDecimal, if_neg]
    simp [hsign]
  simp only [chars, dateChars, hyear, List.cons_append, ofChars?, takeDate, htake,
    Option.bind_eq_bind, Option.bind_none]

end Instant

end ServiceDesk.Time

namespace ServiceDesk

open Time

/-- A stored timestamp is read to the microsecond, and only in a year that has no sign. -/
theorem decodeInstant_encodeInstant (instant : Instant) : decodeInstant (encodeInstant instant) =
    if instant.IsPlain then .ok instant.toMicros else .error .timestamp := by
  rw [decodeInstant, encodeInstant, Instant.text, Instant.ofText?, String.toList_ofList]
  split
  · rename_i read hread
    by_cases hplain : instant.IsPlain
    · rw [Instant.ofChars?_chars hplain] at hread
      cases hread
      rw [if_pos hplain]
    · rw [Instant.ofChars?_chars_of_not_isPlain hplain] at hread
      cases hread
  · rename_i hread
    by_cases hplain : instant.IsPlain
    · rw [Instant.ofChars?_chars hplain] at hread
      cases hread
    · rw [if_neg hplain]

/-- Two stored timestamps that can be read, the first of them not later than the second. -/
def InOrder (early late : String) : Prop :=
  ∃ a b, decodeInstant early = .ok a ∧ decodeInstant late = .ok b ∧ a ≤ b

theorem inOrder_encodeInstant {a b : Instant} (ha : a.IsPlain) (hb : b.IsPlain)
    (h : a.toMicros ≤ b.toMicros) : InOrder (encodeInstant a) (encodeInstant b) := by
  refine ⟨a.toMicros, b.toMicros, ?_, ?_, h⟩
  · rw [decodeInstant_encodeInstant, if_pos ha]
  · rw [decodeInstant_encodeInstant, if_pos hb]

/-- What is cut off is not written. -/
theorem encodeInstant_toMicros (instant : Instant) :
    encodeInstant instant.toMicros = encodeInstant instant := by
  have hleap : instant.toMicros.isLeap = instant.isLeap := by
    rw [Instant.isLeap, Instant.isLeap, decide_eq_decide]
    simp only [Instant.toMicros, billion]
    omega
  have hfraction : instant.toMicros.fraction / 1000 = instant.fraction / 1000 := by
    simp only [Instant.fraction, Instant.toMicros, billion]
    omega
  simp only [encodeInstant, Instant.text, Instant.chars, fractionChars, hleap, hfraction]
  rfl

end ServiceDesk
