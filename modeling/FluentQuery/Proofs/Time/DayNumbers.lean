/-
  Day numbers and dates are inverse to each other. `dateOf_spec`: the date of a day number exists in the
  calendar and has that day number. `ofSeconds?_eq_some`: every second of the years 1 to 9999
  has a date and time of day, and they lead back to it.
-/
import FluentQuery.Time.Calendar
import Mathlib

namespace FluentQuery

namespace Calendar

/-- The length of a year in days. -/
def yearLength (year : Nat) : Nat := if isLeap year then 366 else 365

theorem sum_monthLengths (year : Nat) : (monthLengths (isLeap year)).sum = yearLength year := by
  unfold yearLength
  cases isLeap year <;> rfl

theorem isLeap_iff (year : Nat) :
    isLeap year = true ↔ year % 4 = 0 ∧ (year % 100 ≠ 0 ∨ year % 400 = 0) := by
  simp [isLeap]

theorem daysBeforeYear_succ {year : Nat} (h : 1 ≤ year) :
    daysBeforeYear (year + 1) = daysBeforeYear year + yearLength year := by
  obtain ⟨past, rfl⟩ : ∃ past, year = past + 1 := ⟨year - 1, by omega⟩
  have h4 : (past + 1) / 4 = past / 4 + if (past + 1) % 4 = 0 then 1 else 0 := by split <;> omega
  have h100 : (past + 1) / 100 = past / 100 + if (past + 1) % 100 = 0 then 1 else 0 := by
    split <;> omega
  have h400 : (past + 1) / 400 = past / 400 + if (past + 1) % 400 = 0 then 1 else 0 := by
    split <;> omega
  have hle : past / 100 ≤ past / 4 := Nat.div_le_div_left (by decide) (by decide)
  have hcentury : (past + 1) % 100 = 0 → (past + 1) % 4 = 0 := by omega
  have hera : (past + 1) % 400 = 0 → (past + 1) % 100 = 0 := by omega
  unfold daysBeforeYear yearLength
  simp only [Nat.add_sub_cancel, isLeap_iff, h4, h100, h400]
  -- what is left is which of the three remainders are zero
  clear h4 h100 h400
  generalize past / 4 = fours at *
  generalize past / 100 = centuries at *
  generalize past / 400 = eras at *
  by_cases c4 : (past + 1) % 4 = 0
  · by_cases c100 : (past + 1) % 100 = 0
    · by_cases c400 : (past + 1) % 400 = 0 <;> simp [c4, c100, c400] <;> omega
    · have c400 : ¬(past + 1) % 400 = 0 := fun h => c100 (hera h)
      simp [c4, c100, c400]
      omega
  · have c100 : ¬(past + 1) % 100 = 0 := fun h => c4 (hcentury h)
    have c400 : ¬(past + 1) % 400 = 0 := fun h => c100 (hera h)
    simp [c4, c100, c400]
    omega

theorem daysBeforeYear_mono {a b : Nat} (ha : 1 ≤ a) (h : a ≤ b) :
    daysBeforeYear a ≤ daysBeforeYear b := by
  induction b, h using Nat.le_induction with
  | base => exact Nat.le_refl _
  | succ b hab ih =>
    rw [daysBeforeYear_succ (by omega)]
    omega

/-- The days before a year that is given by era, century, olympiad and place in the olympiad. -/
theorem daysBeforeYear_parts (era : Nat) {century olympiad place : Nat} (hc : century ≤ 3)
    (ho : olympiad ≤ 24) (hp : place ≤ 3) :
    daysBeforeYear (400 * era + 100 * century + 4 * olympiad + place + 1) =
      146097 * era + 36524 * century + 1461 * olympiad + 365 * place := by
  have h4 : (400 * era + 100 * century + 4 * olympiad + place) / 4 =
      100 * era + 25 * century + olympiad := by omega
  have h100 : (400 * era + 100 * century + 4 * olympiad + place) / 100 = 4 * era + century := by
    omega
  have h400 : (400 * era + 100 * century + 4 * olympiad + place) / 400 = era := by omega
  unfold daysBeforeYear
  dsimp only
  rw [Nat.add_sub_cancel, h4, h100, h400]
  omega

theorem isLeap_parts (era : Nat) {century olympiad : Nat} (ho : olympiad ≤ 24)
    (h : olympiad ≠ 24 ∨ century = 3) :
    isLeap (400 * era + 100 * century + 4 * olympiad + 3 + 1) = true := by
  rw [isLeap_iff]
  omega

/-- A day number falls into its year. -/
theorem yearAndDay_spec (number : Nat) :
    1 ≤ (yearAndDay number).1 ∧
      daysBeforeYear (yearAndDay number).1 + (yearAndDay number).2 = number ∧
      (yearAndDay number).2 < yearLength (yearAndDay number).1 := by
  have hera := Nat.div_add_mod number 146097
  have hinEra := Nat.mod_lt number (show 0 < 146097 by decide)
  unfold yearAndDay
  dsimp only
  generalize number / 146097 = era at *
  generalize number % 146097 = inEra at *
  obtain ⟨century, hcentury⟩ : ∃ century, century = min (inEra / 36524) 3 := ⟨_, rfl⟩
  rw [← hcentury]
  obtain ⟨inCentury, hinCentury⟩ : ∃ inCentury, inCentury = inEra - century * 36524 := ⟨_, rfl⟩
  rw [← hinCentury]
  have hc3 : century ≤ 3 := by omega
  have hinCentury_le : inEra = century * 36524 + inCentury ∧
      (inCentury < 36524 ∨ century = 3 ∧ inCentury = 36524) := by omega
  have holympiad := Nat.div_add_mod inCentury 1461
  have hinOlympiad := Nat.mod_lt inCentury (show 0 < 1461 by decide)
  generalize inCentury / 1461 = olympiad at *
  generalize inCentury % 1461 = inOlympiad at *
  have ho24 : olympiad ≤ 24 := by omega
  obtain ⟨place, hplace⟩ : ∃ place, place = min (inOlympiad / 365) 3 := ⟨_, rfl⟩
  rw [← hplace]
  have hp3 : place ≤ 3 := by omega
  have hday : inOlympiad = place * 365 + (inOlympiad - place * 365) ∧
      (inOlympiad - place * 365 < 365 ∨ place = 3 ∧ inOlympiad = 1460) := by omega
  rw [daysBeforeYear_parts era hc3 ho24 hp3]
  refine ⟨by omega, by omega, ?_⟩
  unfold yearLength
  rcases hday.2 with hlt | ⟨rfl, hlast⟩
  · split <;> omega
  · rw [isLeap_parts era ho24 (by omega)]
    simp only [if_true]
    omega

theorem daysBeforeMonth_eq_sum (year month : Nat) :
    daysBeforeMonth year month = ((monthLengths (isLeap year)).take (month - 1)).sum := rfl

/-- A day of the year falls into its month. -/
theorem monthAndDay_spec (month : Nat) (lengths : List Nat) {day : Nat} (h : day < lengths.sum) :
    ∃ i, ∃ hi : i < lengths.length, (monthAndDay month lengths day).1 = month + i ∧
      (lengths.take i).sum + ((monthAndDay month lengths day).2 - 1) = day ∧
      1 ≤ (monthAndDay month lengths day).2 ∧ (monthAndDay month lengths day).2 ≤ lengths[i] := by
  induction lengths generalizing month day with
  | nil => simp at h
  | cons length rest ih =>
    unfold monthAndDay
    split
    · exact ⟨0, by simp, by simp; omega⟩
    · rw [List.sum_cons] at h
      have hrest : day - length < rest.sum := by omega
      obtain ⟨i, hi, h1, h2, h3, h4⟩ := ih (month + 1) hrest
      refine ⟨i + 1, by simpa using hi, by omega, ?_, h3, by simpa using h4⟩
      rw [List.take_succ_cons, List.sum_cons]
      omega

theorem dateOf_eq {number year dayOfYear month day : Nat}
    (hyear : yearAndDay number = (year, dayOfYear))
    (hmonth : monthAndDay 1 (monthLengths (isLeap year)) dayOfYear = (month, day)) :
    dateOf number = (year, month, day) := by
  rw [dateOf, hyear]
  dsimp only
  rw [hmonth]

/-- The date of a day number is a date of the calendar, it has that day number, and the day falls into
its year. -/
theorem dateOf_spec {number year month day : Nat} (h : dateOf number = (year, month, day)) :
    1 ≤ year ∧ (1 ≤ month ∧ month ≤ 12) ∧ (1 ≤ day ∧ day ≤ daysInMonth year month) ∧
      dayNumber year month day = number ∧
      daysBeforeYear year ≤ number ∧ number < daysBeforeYear (year + 1) := by
  obtain ⟨hy, hnumber, hday⟩ := yearAndDay_spec number
  cases hparts : yearAndDay number with
  | mk year' dayOfYear =>
    rw [hparts] at hy hnumber hday
    have hsum : dayOfYear < (monthLengths (isLeap year')).sum := by
      rw [sum_monthLengths]
      exact hday
    obtain ⟨i, hi, hmonth, hback, hlo, hhi⟩ := monthAndDay_spec 1 _ hsum
    cases hfound : monthAndDay 1 (monthLengths (isLeap year')) dayOfYear with
    | mk month' day' =>
      rw [hfound] at hmonth hback hlo hhi
      rw [dateOf_eq hparts hfound] at h
      cases h
      have hi12 : i < 12 := hi
      dsimp only at hy hnumber hday hmonth hback hlo hhi
      subst hmonth
      refine ⟨hy, ⟨by omega, by omega⟩, ⟨hlo, ?_⟩, ?_, by omega, ?_⟩
      · unfold daysInMonth
        rw [if_neg (by omega), Nat.add_sub_cancel_left, List.getD_eq_getElem?_getD,
          List.getElem?_eq_getElem hi]
        exact hhi
      · unfold dayNumber
        rw [daysBeforeMonth_eq_sum, Nat.add_sub_cancel_left]
        omega
      · rw [daysBeforeYear_succ hy]
        omega

/-- The year that a day falls into is before another one iff the day is before the first day of that
one. -/
theorem year_lt_iff {year later number : Nat} (hle : daysBeforeYear year ≤ number)
    (hlt : number < daysBeforeYear (year + 1)) (hlater : 1 ≤ later) :
    year < later ↔ number < daysBeforeYear later := by
  constructor
  · intro h
    exact Nat.lt_of_lt_of_le hlt (daysBeforeYear_mono (Nat.le_add_left _ _) h)
  · intro h
    by_contra hge
    have hmono := daysBeforeYear_mono hlater (Nat.le_of_not_lt hge)
    omega

end Calendar

namespace CivilTime

open Calendar

/-- The first second of a year. -/
def firstSecond (year : Nat) : Int := toSeconds ⟨year, 1, 1, 0, 0, 0⟩

theorem firstSecond_eq (year : Nat) :
    firstSecond year = ((daysBeforeYear year : Int) - epochDay) * 86400 := by
  simp [firstSecond, toSeconds, dayNumber, daysBeforeMonth]

theorem isValid_iff {t : CivilTime} :
    t.isValid = true ↔ (1 ≤ t.year ∧ t.year ≤ 9999) ∧ (1 ≤ t.month ∧ t.month ≤ 12) ∧
      (1 ≤ t.day ∧ t.day ≤ daysInMonth t.year t.month) ∧
      t.hour < 24 ∧ t.minute < 60 ∧ t.second < 60 := by
  simp only [isValid, Bool.and_eq_true, decide_eq_true_eq]
  tauto

/-- The civil time of a second, from the date of its day. -/
theorem ofSeconds?_of_dateOf {seconds : Int} {year month day : Nat}
    (hday : ¬seconds / 86400 + epochDay < 0)
    (hdate : dateOf (seconds / 86400 + epochDay).toNat = (year, month, day)) :
    ofSeconds? seconds =
      if 9999 < year then none
      else some ⟨year, month, day, (seconds % 86400).toNat / 3600,
        (seconds % 86400).toNat % 3600 / 60, (seconds % 86400).toNat % 60⟩ := by
  rw [ofSeconds?]
  dsimp only
  rw [if_neg hday, hdate]

theorem day_nonneg_of_ofSeconds? {seconds : Int} {civil : CivilTime}
    (h : ofSeconds? seconds = some civil) : ¬seconds / 86400 + epochDay < 0 := by
  intro hday
  have hnone : ofSeconds? seconds = none := by
    rw [ofSeconds?]
    exact if_pos hday
  rw [hnone] at h
  cases h

/-- Every second of the years 1 to 9999 has a date and a time of day, and they lead back to it. -/
theorem ofSeconds?_eq_some {seconds : Int} (hlo : firstSecond 1 ≤ seconds)
    (hhi : seconds < firstSecond 10000) :
    ∃ civil, ofSeconds? seconds = some civil ∧ civil.isValid = true ∧
      civil.toSeconds = seconds := by
  rw [firstSecond_eq] at hlo hhi
  have h1 : daysBeforeYear 1 = 0 := rfl
  have hday : ¬seconds / 86400 + epochDay < 0 := by omega
  cases hdate : dateOf (seconds / 86400 + epochDay).toNat with
  | mk year rest =>
    obtain ⟨month, day⟩ := rest
    obtain ⟨hy, hmonth, hdays, hback, hle, hlt⟩ := dateOf_spec hdate
    have hyear : year < 10000 := (year_lt_iff hle hlt (by decide)).2 (by omega)
    have hofSeconds := ofSeconds?_of_dateOf hday hdate
    rw [if_neg (by omega)] at hofSeconds
    refine ⟨_, hofSeconds, ?_, ?_⟩
    · exact isValid_iff.2 ⟨⟨hy, by dsimp only; omega⟩, hmonth, hdays, by dsimp only; omega⟩
    · unfold toSeconds
      dsimp only
      rw [hback]
      omega

theorem ofSeconds?_year_le_iff {seconds : Int} {civil : CivilTime}
    (h : ofSeconds? seconds = some civil) {year : Nat} (hyear : 1 ≤ year) :
    year ≤ civil.year ↔ firstSecond year ≤ seconds := by
  have hday := day_nonneg_of_ofSeconds? h
  cases hdate : dateOf (seconds / 86400 + epochDay).toNat with
  | mk year' rest =>
    obtain ⟨month, day⟩ := rest
    obtain ⟨-, -, -, -, hle, hlt⟩ := dateOf_spec hdate
    have hbefore := year_lt_iff hle hlt hyear
    rw [ofSeconds?_of_dateOf hday hdate] at h
    by_cases hlate : 9999 < year'
    · rw [if_pos hlate] at h
      cases h
    · rw [if_neg hlate] at h
      cases h
      rw [firstSecond_eq]
      dsimp only
      omega

end CivilTime

end FluentQuery
