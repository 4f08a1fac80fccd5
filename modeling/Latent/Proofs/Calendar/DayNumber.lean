import Mathlib.Algebra.Order.Group.Int
import Mathlib.Order.Nat
import Latent.Calendar.Adjustment

/-!
# Dates and their day numbers

The day number of a date leads back to the date: years begin 365 or 366 days apart, and the estimate
of the year is off by one at most.  From this an adjustment that overrides every field of a date gives
the date of its overrides, whatever its base; only a year zero is taken from the base.
-/

namespace Latent

/-! ## Years -/

/-- A leap year has one day more. -/
theorem daysBeforeYear_succ (year : Int) :
    daysBeforeYear (year + 1) = daysBeforeYear year + if isLeapYear year then 366 else 365 := by
  unfold daysBeforeYear isLeapYear
  by_cases h4 : year % 4 = 0
  · by_cases h100 : year % 100 = 0
    · by_cases h400 : year % 400 = 0
      · simp [h4, h400]
        omega
      · simp [h4, h100, h400]
        omega
    · simp [h4, h100]
      omega
  · simp [h4]
    omega

/-- Years begin in their order. -/
theorem daysBeforeYear_lt {year later : Int} (h : year < later) :
    daysBeforeYear year < daysBeforeYear later := by
  unfold daysBeforeYear
  omega

/-- The year of a day begins on or before the day, and the next year after it. -/
theorem yearOfDay_bounds (day : Int) :
    daysBeforeYear (yearOfDay day) ≤ day ∧ day < daysBeforeYear (yearOfDay day + 1) := by
  have hestimate : 146097 * (400 * day / 146097) ≤ 400 * day ∧
      400 * day < 146097 * (400 * day / 146097 + 1) := by omega
  unfold yearOfDay
  dsimp only
  generalize 400 * day / 146097 = estimate at hestimate ⊢
  obtain ⟨hlow, hhigh⟩ := hestimate
  -- in each case the untested bound follows from the mean length of a year
  split
  · rename_i hnext
    refine ⟨hnext, ?_⟩
    unfold daysBeforeYear
    omega
  · rename_i hnext
    split
    · rename_i hbefore
      rw [Int.sub_add_cancel]
      refine ⟨?_, hbefore⟩
      unfold daysBeforeYear
      omega
    · rename_i hbefore
      exact ⟨Int.not_lt.1 hbefore, Int.not_le.1 hnext⟩

/-- A day between the starts of two years is in the first of them. -/
theorem yearOfDay_eq {year day : Int} (h : daysBeforeYear year ≤ day)
    (h' : day < daysBeforeYear (year + 1)) : yearOfDay day = year := by
  obtain ⟨hle, hlt⟩ := yearOfDay_bounds day
  -- the years around another one would begin on the wrong side of the day
  rcases lt_trichotomy (yearOfDay day) year with hlow | heq | hhigh
  · rcases (Int.add_one_le_iff.2 hlow).lt_or_eq with hlt' | heq'
    · have := daysBeforeYear_lt hlt'
      omega
    · rw [heq'] at hlt
      omega
  · exact heq
  · rcases (Int.add_one_le_iff.2 hhigh).lt_or_eq with hlt' | heq'
    · have := daysBeforeYear_lt hlt'
      omega
    · rw [heq'] at h'
      omega

/-! ## Months -/

/-- A month begins when the one before it is over. -/
theorem daysBeforeMonth_succ (year : Int) {month : Nat} (h : 1 ≤ month) :
    daysBeforeMonth year (month + 1) = daysBeforeMonth year month + daysInMonth year month := by
  obtain ⟨m, rfl⟩ := Nat.exists_eq_add_of_le' h
  rfl

/-- Months begin in their order. -/
theorem daysBeforeMonth_le (year : Int) {month later : Nat} (h : month ≤ later) :
    daysBeforeMonth year month ≤ daysBeforeMonth year later := by
  induction later, h using Nat.le_induction with
  | base => exact Nat.le_refl _
  | succ n _ ih =>
      rcases Nat.eq_zero_or_pos n with rfl | hn
      · exact ih
      · rw [daysBeforeMonth_succ year hn]
        omega

/-- Twelve months make a year. -/
theorem daysBeforeMonth_thirteen (year : Int) :
    daysBeforeMonth year 13 = if isLeapYear year then 366 else 365 := by
  simp only [daysBeforeMonth, daysInMonth]
  cases isLeapYear year <;> rfl

/-- A day between the starts of two months is in the first of them. -/
theorem monthOfDay_eq {year : Int} {day month bound : Nat} (hpos : 1 ≤ month)
    (hbound : month ≤ bound) (h : daysBeforeMonth year month ≤ day)
    (h' : day < daysBeforeMonth year (month + 1)) : monthOfDay year day bound = month := by
  -- the search goes down from the bound, over months that begin after the day
  induction bound, hbound using Nat.le_induction with
  | base =>
      obtain ⟨m, rfl⟩ := Nat.exists_eq_add_of_le' hpos
      rw [monthOfDay, if_pos h]
  | succ n hn ih =>
      have hlater : daysBeforeMonth year (month + 1) ≤ daysBeforeMonth year (n + 1) :=
        daysBeforeMonth_le year (by omega)
      rw [monthOfDay, if_neg (by omega), ih]

/-! ## Dates -/

namespace Date

theorem of?_self (d : Date) : of? d.year d.month d.day = some d := dif_pos d.valid

/-- The day of a date, counted from the start of its year. -/
theorem dayOfYear_bounds (d : Date) :
    1 ≤ d.day ∧ daysBeforeMonth d.year d.month + d.day ≤ daysBeforeMonth d.year (d.month + 1) ∧
      daysBeforeYear d.year + daysBeforeMonth d.year (d.month + 1)
        ≤ daysBeforeYear (d.year + 1) := by
  obtain ⟨_, _, hmonth, hmonth', hday, hday'⟩ := d.valid
  refine ⟨hday, ?_, ?_⟩
  · rw [daysBeforeMonth_succ _ hmonth]
    omega
  · have hle : daysBeforeMonth d.year (d.month + 1) ≤ daysBeforeMonth d.year 13 :=
      daysBeforeMonth_le d.year (by omega)
    rw [daysBeforeMonth_thirteen] at hle
    rw [daysBeforeYear_succ]
    split at hle <;> simp only [*, if_true, if_false, Bool.false_eq_true] <;> omega

/-- The day number of a date leads back to it. -/
theorem ofDayNumber?_dayNumber (d : Date) : ofDayNumber? d.dayNumber = some d := by
  obtain ⟨hday, hmonth, hyear⟩ := dayOfYear_bounds d
  have hdays : d.dayNumber + epochDay
      = daysBeforeYear d.year + ((daysBeforeMonth d.year d.month + (d.day - 1) : Nat) : Int) := by
    unfold dayNumber
    omega
  have hy : yearOfDay (d.dayNumber + epochDay) = d.year := by
    apply yearOfDay_eq <;> rw [hdays] <;> omega
  have hofYear : (d.dayNumber + epochDay - daysBeforeYear d.year).toNat
      = daysBeforeMonth d.year d.month + (d.day - 1) := by
    rw [hdays]
    omega
  have hm : monthOfDay d.year (daysBeforeMonth d.year d.month + (d.day - 1)) 12 = d.month := by
    obtain ⟨_, _, hpos, hle, _⟩ := d.valid
    exact monthOfDay_eq hpos hle (Nat.le_add_right _ _) (by omega)
  unfold ofDayNumber?
  dsimp only
  rw [hy, hofYear, hm, Nat.add_sub_cancel_left, Nat.sub_add_cancel hday, of?_self]

/-- Day numbers tell dates apart. -/
theorem dayNumber_injective {a b : Date} (h : a.dayNumber = b.dayNumber) : a = b := by
  have hab := ofDayNumber?_dayNumber a
  rw [h, ofDayNumber?_dayNumber b] at hab
  exact (Option.some.inj hab).symm

/-- Nothing is moved by no days. -/
theorem addDays?_zero (d : Date) : d.addDays? 0 = some d := by
  rw [addDays?, Int.add_zero, ofDayNumber?_dayNumber]

/-- A month counted from the start of year zero, with a day that it has. -/
theorem ofMonthIndex?_eq (d : Date) (year : Int) (month : Nat) (hy : year = d.year)
    (hm : month = d.month) : ofMonthIndex? (12 * year + month - 1) d.day = some d := by
  obtain ⟨_, _, hpos, hle, _, hday⟩ := d.valid
  have hdiv : (12 * d.year + (d.month : Int) - 1) / 12 = d.year := by omega
  have hmod : ((12 * d.year + (d.month : Int) - 1) % 12).toNat + 1 = d.month := by omega
  subst hy hm
  unfold ofMonthIndex?
  dsimp only
  rw [hdiv, hmod, Nat.min_eq_left hday, of?_self]

/-- Nothing is moved by no months. -/
theorem addMonths?_zero (d : Date) : d.addMonths? 0 = some d := by
  rw [addMonths?, Int.add_zero, monthIndex]
  exact ofMonthIndex?_eq d d.year d.month rfl rfl

/-- The first day of the month of a date. -/
def firstOfMonth (d : Date) : Date where
  year := d.year
  month := d.month
  day := 1
  valid := by
    obtain ⟨hy, hy', hm, hm', hd, hd'⟩ := d.valid
    exact ⟨hy, hy', hm, hm', Nat.le_refl 1, by omega⟩

/-- The days from the first of a month on. -/
theorem addDays?_firstOfMonth (d : Date) : d.firstOfMonth.addDays? (d.day - 1) = some d := by
  have hnumber : d.firstOfMonth.dayNumber + ((d.day : Int) - 1) = d.dayNumber := by
    unfold dayNumber firstOfMonth
    dsimp only
    omega
  rw [addDays?, hnumber, ofDayNumber?_dayNumber]

/-! ## Dates without a year -/

/-- The first of March in the year of a date. -/
def firstOfMarch (d : Date) : Date where
  year := d.year
  month := 3
  day := 1
  valid := by
    obtain ⟨hy, hy', _⟩ := d.valid
    exact ⟨hy, hy', by decide, by decide, Nat.le_refl 1, by unfold daysInMonth; simp⟩

/-- The same day in the year of `base`: the first of March when it is the 29th of February and that
year has none. -/
def inYearOf (d base : Date) : Date := (of? base.year d.month d.day).getD base.firstOfMarch

/-- The date as it is understood on the date `base` when a year zero stands for no year. -/
def resolve (d base : Date) : Date := if d.year = 0 then d.inYearOf base else d

/-- A date with a year is understood as it is. -/
theorem resolve_of_ne {d : Date} (h : d.year ≠ 0) (base : Date) : d.resolve base = d := if_neg h

/-- Only the 29th of February is not in every year. -/
theorem eq_of_not_valid {d base : Date} (h : ¬ Valid base.year d.month d.day) :
    d.month = 2 ∧ d.day = 29 ∧ daysInMonth base.year 2 = 28 := by
  obtain ⟨_, _, hmonth, hmonth', hday, hday'⟩ := d.valid
  obtain ⟨hyear, hyear', _⟩ := base.valid
  have hlong : daysInMonth base.year d.month < d.day := by
    by_contra hle
    exact h ⟨hyear, hyear', hmonth, hmonth', hday, by omega⟩
  unfold daysInMonth at *
  by_cases hfebruary : d.month = 2
  · simp only [hfebruary, if_true] at *
    split at hlong <;> split at hday' <;> simp [*] <;> omega
  · simp only [hfebruary, if_false] at *
    omega

/-- A date of the year zero is understood as the same day of the year of `base`, or as the first of
March for want of a 29th of February. -/
theorem resolve_of_eq {d : Date} (h : d.year = 0) (base : Date) :
    (d.resolve base).year = base.year ∧
      ((d.resolve base).month = d.month ∧ (d.resolve base).day = d.day ∨
        d.month = 2 ∧ d.day = 29 ∧ daysInMonth base.year 2 = 28 ∧
          (d.resolve base).month = 3 ∧ (d.resolve base).day = 1) := by
  rw [resolve, if_pos h, inYearOf]
  by_cases hvalid : Valid base.year d.month d.day
  · have hof : of? base.year d.month d.day = some ⟨base.year, d.month, d.day, hvalid⟩ := dif_pos hvalid
    rw [hof, Option.getD_some]
    exact ⟨rfl, .inl ⟨rfl, rfl⟩⟩
  · obtain ⟨hmonth, hday, hdays⟩ := eq_of_not_valid hvalid
    have hof : of? base.year d.month d.day = none := dif_neg hvalid
    rw [hof, Option.getD_none]
    exact ⟨rfl, .inr ⟨hmonth, hday, hdays, rfl, rfl⟩⟩

/-- The first day of the month of a date, in the year of `base`. -/
def monthIn (d base : Date) : Date where
  year := base.year
  month := d.month
  day := 1
  valid := by
    obtain ⟨_, _, hm, hm', _⟩ := d.valid
    obtain ⟨hy, hy', _⟩ := base.valid
    refine ⟨hy, hy', hm, hm', Nat.le_refl 1, ?_⟩
    unfold daysInMonth
    split
    · split <;> decide
    · split <;> decide

/-- Counted from the first of its month, the day of a date is the same day of another year. -/
theorem addDays?_monthIn (d base : Date) :
    (d.monthIn base).addDays? (d.day - 1) = some (d.inYearOf base) := by
  by_cases h : Valid base.year d.month d.day
  · have hof : of? base.year d.month d.day = some ⟨base.year, d.month, d.day, h⟩ := dif_pos h
    rw [inYearOf, hof, Option.getD_some]
    exact addDays?_firstOfMonth ⟨base.year, d.month, d.day, h⟩
  · -- February has 28 days, and the 29th day from its first is the first of March
    obtain ⟨hmonth, hday, hdays⟩ := eq_of_not_valid h
    have hof : of? base.year d.month d.day = none := dif_neg h
    have hnumber : (d.monthIn base).dayNumber + ((d.day : Int) - 1) = base.firstOfMarch.dayNumber := by
      have hmarch : daysBeforeMonth base.year 3
          = daysBeforeMonth base.year 2 + daysInMonth base.year 2 :=
        daysBeforeMonth_succ base.year (by decide)
      unfold dayNumber monthIn firstOfMarch
      dsimp only
      rw [hmonth, hday]
      omega
    rw [inYearOf, hof, Option.getD_none, addDays?, hnumber, ofDayNumber?_dayNumber]

end Date

/-! ## Adjustments that override a whole date -/

/-- Every field overridden with those of a date, nothing added.  Zero is no override of a year. -/
def DateAdjustment.replacing (d : Date) : DateAdjustment :=
  ⟨(some d.year).filter (· ≠ 0), some d.month, some d.day, 0, 0, 0⟩

/-- Overrides of every field leave nothing of the base but a year that is not told. -/
theorem DateAdjustment.override?_replacing (d base : Date) :
    (DateAdjustment.replacing d).override? base = some (d.resolve base) := by
  obtain ⟨_, _, hpos, hle, _⟩ := d.valid
  have hrange : InInt64 ((d.month : Int) - 1) := by
    constructor <;> omega
  unfold override? firstOfMonth? replacing
  simp only [Option.getD_some]
  rw [if_pos hrange, ← Int.add_sub_assoc]
  by_cases hyear : d.year = 0
  · have hfirst : Date.ofMonthIndex? (12 * base.year + (d.month : Int) - 1) 1
        = some (d.monthIn base) :=
      Date.ofMonthIndex?_eq (d.monthIn base) base.year d.month rfl rfl
    rw [Option.filter_some, if_neg (by simpa using hyear), Option.getD_none, hfirst, Date.resolve,
      if_pos hyear]
    exact Date.addDays?_monthIn d base
  · have hfirst : Date.ofMonthIndex? (12 * d.year + (d.month : Int) - 1) 1 = some d.firstOfMonth :=
      Date.ofMonthIndex?_eq d.firstOfMonth d.year d.month rfl rfl
    rw [Option.filter_some, if_pos (by simpa using hyear), Option.getD_some, hfirst,
      Date.resolve_of_ne hyear]
    exact Date.addDays?_firstOfMonth d

/-- Overrides alone make the adjustment when nothing is added. -/
theorem DateAdjustment.adjust?_of_no_additions (year month day : Option Int) (base : Date) :
    (⟨year, month, day, 0, 0, 0⟩ : DateAdjustment).adjust? base
      = (⟨year, month, day, 0, 0, 0⟩ : DateAdjustment).override? base := by
  rw [adjust?]
  cases override? ⟨year, month, day, 0, 0, 0⟩ base with
  | none => rfl
  | some date =>
      simp only [Option.bind_eq_bind, Option.bind_some, Int.mul_zero, Date.addMonths?_zero,
        Date.addDays?_zero]

/-- Such an adjustment gives the date as it is understood on the base. -/
theorem DateAdjustment.adjust?_replacing (d base : Date) :
    (DateAdjustment.replacing d).adjust? base = some (d.resolve base) :=
  (adjust?_of_no_additions _ _ _ base).trans (override?_replacing d base)

end Latent
