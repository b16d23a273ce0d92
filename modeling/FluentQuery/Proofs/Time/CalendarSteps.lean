/-
  Steps through the calendar: the next day, by month lengths and turns of the year, and the next second, by
  carries through minute and hour to the next day. A day is 86400 seconds later (`toSeconds_nextDay`), and
  a second is one second later, over midnight too (`toSeconds_nextSecond`).
-/
import FluentQuery.Proofs.Time.DayNumbers

namespace FluentQuery

namespace Calendar

/-- The days before the month after this one. -/
theorem sum_take_monthLengths {year month : Nat} (hlo : 1 ≤ month) (hhi : month ≤ 12) :
    ((monthLengths (isLeap year)).take month).sum =
      daysBeforeMonth year month + daysInMonth year month := by
  obtain ⟨i, rfl⟩ : ∃ i, month = i + 1 := ⟨month - 1, by omega⟩
  have hi : i < (monthLengths (isLeap year)).length := by
    unfold monthLengths
    exact hhi
  rw [daysBeforeMonth_eq_sum, daysInMonth, if_neg (by omega), Nat.add_sub_cancel,
    List.sum_take_succ _ i hi, List.getD_eq_getElem _ _ hi]

theorem daysBeforeMonth_succ (year : Nat) {month : Nat} (hlo : 1 ≤ month) (hhi : month ≤ 12) :
    daysBeforeMonth year (month + 1) = daysBeforeMonth year month + daysInMonth year month := by
  rw [daysBeforeMonth_eq_sum, Nat.add_sub_cancel, sum_take_monthLengths hlo hhi]

/-- The last of December is the last day of the year. -/
theorem daysBeforeMonth_december (year : Nat) :
    daysBeforeMonth year 12 + daysInMonth year 12 = yearLength year := by
  rw [← sum_take_monthLengths (by decide) (by decide), ← sum_monthLengths]
  rfl

theorem one_le_daysInMonth (year : Nat) {month : Nat} (hlo : 1 ≤ month) (hhi : month ≤ 12) :
    1 ≤ daysInMonth year month := by
  have h : ∀ leap, ∀ i < 12, 1 ≤ (monthLengths leap).getD i 0 := by decide
  rw [daysInMonth, if_neg (by omega)]
  exact h _ _ (by omega)

end Calendar

namespace CivilTime

open Calendar

/-- The same time of day on the next day. -/
def nextDay (t : CivilTime) : CivilTime :=
  if t.day < daysInMonth t.year t.month then { t with day := t.day + 1 }
  else if t.month < 12 then { t with month := t.month + 1, day := 1 }
  else { t with year := t.year + 1, month := 1, day := 1 }

/-- The time one second later. -/
def nextSecond (t : CivilTime) : CivilTime :=
  if t.second < 59 then { t with second := t.second + 1 }
  else if t.minute < 59 then { t with minute := t.minute + 1, second := 0 }
  else if t.hour < 23 then { t with hour := t.hour + 1, minute := 0, second := 0 }
  else { t.nextDay with hour := 0, minute := 0, second := 0 }

variable {t : CivilTime}

/-- The next day has the next day number. -/
theorem dayNumber_nextDay (h : t.isValid = true) :
    dayNumber t.nextDay.year t.nextDay.month t.nextDay.day = dayNumber t.year t.month t.day + 1 := by
  obtain ⟨⟨hy, -⟩, ⟨hm, hm12⟩, ⟨hd, hdays⟩, -⟩ := isValid_iff.1 h
  unfold nextDay dayNumber
  split_ifs with hday hmonth
  · dsimp only
    omega
  · have hnext := daysBeforeMonth_succ t.year hm hm12
    dsimp only
    omega
  · have hdecember : t.month = 12 := by omega
    have hyear := daysBeforeYear_succ hy
    have hlast := daysBeforeMonth_december t.year
    have hfirst : daysBeforeMonth (t.year + 1) 1 = 0 := rfl
    rw [hdecember] at hday hdays ⊢
    dsimp only
    omega

@[simp] theorem hour_nextDay (t : CivilTime) : t.nextDay.hour = t.hour := by
  unfold nextDay
  split_ifs <;> rfl

@[simp] theorem minute_nextDay (t : CivilTime) : t.nextDay.minute = t.minute := by
  unfold nextDay
  split_ifs <;> rfl

@[simp] theorem second_nextDay (t : CivilTime) : t.nextDay.second = t.second := by
  unfold nextDay
  split_ifs <;> rfl

/-- The same time on the next day is 86400 seconds later. -/
theorem toSeconds_nextDay (h : t.isValid = true) : t.nextDay.toSeconds = t.toSeconds + 86400 := by
  unfold toSeconds
  rw [dayNumber_nextDay h, hour_nextDay, minute_nextDay, second_nextDay]
  omega

theorem toSeconds_nextSecond (h : t.isValid = true) : t.nextSecond.toSeconds = t.toSeconds + 1 := by
  obtain ⟨-, -, -, hh, hm, hs⟩ := isValid_iff.1 h
  have hday := dayNumber_nextDay h
  unfold nextSecond toSeconds
  split_ifs with hsecond hminute hhour
  · dsimp only
    omega
  · dsimp only
    omega
  · dsimp only
    omega
  · dsimp only
    rw [hday]
    omega

/-- The next day exists in the calendar, up to the end of the year 9999. -/
theorem isValid_nextDay (h : t.isValid = true) (hyear : t.nextDay.year ≤ 9999) :
    t.nextDay.isValid = true := by
  obtain ⟨⟨hy, hy9⟩, ⟨hm, hm12⟩, ⟨hd, hdays⟩, htime⟩ := isValid_iff.1 h
  refine isValid_iff.2 ⟨⟨?_, hyear⟩, ?_⟩
  · unfold nextDay
    split_ifs <;> dsimp only <;> omega
  · rw [hour_nextDay, minute_nextDay, second_nextDay]
    unfold nextDay
    split_ifs with hday hmonth
    · exact ⟨⟨hm, hm12⟩, ⟨by dsimp only; omega, hday⟩, htime⟩
    · have hmonth' : 1 ≤ daysInMonth t.year (t.month + 1) :=
        one_le_daysInMonth t.year (by omega) (by omega)
      exact ⟨⟨by dsimp only; omega, hmonth⟩, ⟨Nat.le_refl 1, hmonth'⟩, htime⟩
    · have hmonth' := one_le_daysInMonth (t.year + 1) (Nat.le_refl 1) (by decide)
      exact ⟨⟨Nat.le_refl 1, by dsimp only; omega⟩, ⟨Nat.le_refl 1, hmonth'⟩, htime⟩

theorem isValid_nextSecond (h : t.isValid = true) (hyear : t.nextSecond.year ≤ 9999) :
    t.nextSecond.isValid = true := by
  obtain ⟨hy, hm, hd, hh, hmin, hs⟩ := isValid_iff.1 h
  unfold nextSecond at hyear ⊢
  split_ifs at hyear ⊢ with hsecond hminute hhour
  · exact isValid_iff.2 ⟨hy, hm, hd, hh, hmin, by dsimp only; omega⟩
  · exact isValid_iff.2 ⟨hy, hm, hd, hh, by dsimp only; omega⟩
  · exact isValid_iff.2 ⟨hy, hm, hd, by dsimp only; omega⟩
  · obtain ⟨hy', hm', hd', -⟩ := isValid_iff.1 (isValid_nextDay h hyear)
    exact isValid_iff.2 ⟨hy', hm', hd', by dsimp only; omega⟩

end CivilTime

end FluentQuery
