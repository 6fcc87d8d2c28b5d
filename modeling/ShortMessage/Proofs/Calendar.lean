import Mathlib.Algebra.GroupWithZero.Nat
import ShortMessage.Calendar

/-!
# Days and dates

Every day has a date, and the date has that day's number.

* `daysBeforeYear_succ`: how long a year is;
* `yearOfDay_bounds`: a day falls in its year;
* `splitMonths_spec`: and in a month of that year;
* `isValid_ofDayNumber`, `dayNumber_ofDayNumber`: the date of a day.
-/

namespace ShortMessage

namespace Calendar

/-! ### Years -/

/-- **The length of a year.** -/
theorem daysBeforeYear_succ (year : Int) :
    daysBeforeYear (year + 1) = daysBeforeYear year + (monthLengths (isLeap year)).sum := by
  have hsum : (monthLengths (isLeap year)).sum = if isLeap year = true then 366 else 365 := by
    cases isLeap year <;> rfl
  have hleap : isLeap year = true ↔ year % 4 = 0 ∧ (year % 100 ≠ 0 ∨ year % 400 = 0) := by
    simp [isLeap]
  rw [hsum]
  unfold daysBeforeYear
  split <;> rename_i h <;> rw [hleap] at h <;> omega

/-- The years before a year have 146097 days in four hundred, but for less than two days. -/
theorem daysBeforeYear_estimate (year : Int) :
    146097 * (year - 1) - 699 ≤ 400 * daysBeforeYear year ∧
      400 * daysBeforeYear year ≤ 146097 * (year - 1) + 396 := by
  unfold daysBeforeYear
  omega

/-- **A day falls in its year.**  The first estimate of the year is never late. -/
theorem yearOfDay_bounds (day : Int) :
    daysBeforeYear (yearOfDay day) ≤ day ∧ day < daysBeforeYear (yearOfDay day + 1) := by
  unfold yearOfDay
  dsimp only
  generalize hq : 400 * day / 146097 = q
  have hfirst := daysBeforeYear_estimate (q + 1)
  have hlast := daysBeforeYear_estimate (q + 1 + 1 + 1)
  split
  · omega
  · split <;> omega

/-! ### Months -/

/-- **A day of the year falls in a month**, and comes after the months before it. -/
theorem splitMonths_spec {lengths : List Nat} {day : Nat} (h : day < lengths.sum) :
    (splitMonths lengths day).1 < lengths.length ∧
      (splitMonths lengths day).2 < (lengths[(splitMonths lengths day).1]?).getD 0 ∧
      daysOfMonths (splitMonths lengths day).1 lengths + (splitMonths lengths day).2 = day := by
  induction lengths generalizing day with
  | nil => cases h
  | cons length lengths ih =>
    unfold splitMonths
    split
    · rename_i hday
      exact ⟨Nat.succ_pos _, hday, Nat.zero_add _⟩
    · rename_i hday
      rw [List.sum_cons] at h
      obtain ⟨hmonth, hlt, heq⟩ := @ih (day - length) (by omega)
      refine ⟨Nat.succ_lt_succ hmonth, hlt, ?_⟩
      simp only [daysOfMonths]
      omega

end Calendar

namespace Date

open Calendar

theorem lengthOfMonth_le (year : Int) (month : Nat) : lengthOfMonth year month ≤ 31 := by
  have hall : ∀ leap, ∀ length ∈ monthLengths leap, length ≤ 31 := by decide
  unfold lengthOfMonth
  cases hlength : (monthLengths (isLeap year))[month - 1]? with
  | none => exact Nat.zero_le _
  | some length => exact hall _ _ (List.mem_of_getElem? hlength)

theorem dayOfYear_spec (day : Int) :
    let rest := (day - daysBeforeYear (yearOfDay day)).toNat
    (rest : Int) = day - daysBeforeYear (yearOfDay day) ∧
      rest < (monthLengths (isLeap (yearOfDay day))).sum := by
  obtain ⟨hfrom, hto⟩ := yearOfDay_bounds day
  rw [daysBeforeYear_succ] at hto
  omega

/-- **The date of a day exists.** -/
theorem isValid_ofDayNumber (day : Int) : (ofDayNumber day).IsValid := by
  obtain ⟨-, hlt⟩ := dayOfYear_spec day
  obtain ⟨hmonth, hday, -⟩ := splitMonths_spec hlt
  exact ⟨Nat.le_add_left .., hmonth, Nat.le_add_left .., hday⟩

/-- **The date of a day has that day's number.** -/
theorem dayNumber_ofDayNumber (day : Int) : (ofDayNumber day).dayNumber = day := by
  obtain ⟨hrest, hlt⟩ := dayOfYear_spec day
  obtain ⟨-, -, hsum⟩ := splitMonths_spec hlt
  unfold dayNumber ofDayNumber
  simp only [Nat.add_sub_cancel]
  omega

end Date

end ShortMessage
