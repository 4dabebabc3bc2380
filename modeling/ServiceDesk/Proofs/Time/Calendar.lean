import ServiceDesk.Time.Calendar

/-!
The calendar in both directions: every day has a date that exists, and the date leads back to the
day. The days of the years 0 to 9999 are those whose date is written with four digits.
-/

namespace ServiceDesk.Time

/-- The years follow each other without a gap, leap years being one day longer. -/
theorem daysBeforeYear_succ (year : Int) :
    daysBeforeYear (year + 1) = daysBeforeYear year + totalDays (monthLengths year) := by
  have hsum : (totalDays (monthLengths year) : Int) = if isLeapYear year then 366 else 365 := by
    rw [monthLengths]
    split <;> rfl
  rw [hsum]
  simp only [daysBeforeYear, isLeapYear, Bool.and_eq_true, Bool.or_eq_true, beq_iff_eq, bne_iff_ne]
  split <;> omega

/-- The year told by the mean length of a year is off by one at most. -/
theorem daysBeforeYear_near (day : Int) :
    daysBeforeYear (400 * day / 146097 - 1) ≤ day ∧
      day < daysBeforeYear (400 * day / 146097 + 1 + 1) := by
  simp only [daysBeforeYear]
  omega

theorem yearOfDay_le (day : Int) : daysBeforeYear (yearOfDay day) ≤ day := by
  have hnear := (daysBeforeYear_near day).1
  unfold yearOfDay
  dsimp only
  split
  · exact hnear
  · split <;> omega

theorem lt_yearOfDay_succ (day : Int) : day < daysBeforeYear (yearOfDay day + 1) := by
  have hnear := (daysBeforeYear_near day).2
  unfold yearOfDay
  dsimp only
  split
  · rwa [Int.sub_add_cancel]
  · split <;> omega

/-- The months passed and the days left over make up the days, and the month is one of the list. -/
theorem splitMonths_spec {lengths : List Nat} {days : Nat} (h : days < totalDays lengths) :
    (splitMonths lengths days).1 < lengths.length ∧
      (splitMonths lengths days).2 < lengths[(splitMonths lengths days).1]?.getD 0 ∧
      totalDays (lengths.take (splitMonths lengths days).1) + (splitMonths lengths days).2 = days := by
  induction lengths generalizing days with
  | nil => cases h
  | cons length rest ih =>
      rw [splitMonths]
      split
      · rename_i hfirst
        exact ⟨Nat.zero_lt_succ _, hfirst, Nat.zero_add days⟩
      · rename_i hlater
        have hrest : days - length < totalDays rest := by
          rw [totalDays] at h
          omega
        obtain ⟨hmonth, hday, hsum⟩ := ih hrest
        refine ⟨by simpa using hmonth, by simpa using hday, ?_⟩
        dsimp only
        rw [List.take_succ_cons, totalDays]
        omega

def dayOfYear (day : Int) : Nat := (day - daysBeforeYear (yearOfDay day)).toNat

theorem dayOfYear_lt (day : Int) : dayOfYear day < totalDays (monthLengths (yearOfDay day)) := by
  have hlow := yearOfDay_le day
  have hhigh := lt_yearOfDay_succ day
  rw [daysBeforeYear_succ] at hhigh
  simp only [dayOfYear]
  omega

theorem isValid_ofDay (day : Int) : (Date.ofDay day).isValid = true := by
  obtain ⟨hmonth, hday, _⟩ := splitMonths_spec (dayOfYear_lt day)
  have htwelve : (monthLengths (yearOfDay day)).length = 12 := rfl
  rw [htwelve] at hmonth
  simp only [Date.isValid, Bool.and_eq_true, decide_eq_true_eq]
  refine ⟨⟨⟨Nat.le_add_left 1 _, hmonth⟩, Nat.le_add_left 1 _⟩, hday⟩

theorem toDay_ofDay (day : Int) : (Date.ofDay day).toDay = day := by
  obtain ⟨_, _, hsum⟩ := splitMonths_spec (dayOfYear_lt day)
  have hlow := yearOfDay_le day
  have hday : ((dayOfYear day : Nat) : Int) = day - daysBeforeYear (yearOfDay day) := by
    rw [dayOfYear, Int.toNat_of_nonneg (by omega)]
  change daysBeforeYear (yearOfDay day) +
    totalDays ((monthLengths (yearOfDay day)).take
      (splitMonths (monthLengths (yearOfDay day)) (dayOfYear day)).1) +
    ((splitMonths (monthLengths (yearOfDay day)) (dayOfYear day)).2 + 1 : Nat) - 1 = day
  omega

theorem monthLengths_le (year : Int) (index : Nat) : (monthLengths year)[index]?.getD 0 ≤ 31 := by
  have hall : ∀ length ∈ monthLengths year, length ≤ 31 := by
    intro length hlength
    simp only [monthLengths, List.mem_cons, List.not_mem_nil, or_false] at hlength
    have hfeb : (if isLeapYear year then 29 else 28) ≤ 31 := by split <;> decide
    omega
  cases hget : (monthLengths year)[index]? with
  | none => exact Nat.zero_le 31
  | some length => exact hall length (List.mem_of_getElem? hget)

theorem ofDay_lt_hundred (day : Int) :
    (Date.ofDay day).month < 100 ∧ (Date.ofDay day).day < 100 := by
  have hvalid := isValid_ofDay day
  simp only [Date.isValid, Bool.and_eq_true, decide_eq_true_eq] at hvalid
  have hlongest := monthLengths_le (Date.ofDay day).year ((Date.ofDay day).month - 1)
  omega

end ServiceDesk.Time
