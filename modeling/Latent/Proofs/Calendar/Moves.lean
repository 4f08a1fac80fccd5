import Latent.Proofs.Calendar.DayNumber

/-!
# Moves of dates

Dates are in the order of year, month and day, and so are their day numbers (`Date.le_iff_dayNumber`).  Days
that are added lead to the date of a day number; months lead to the same day of another month, or to the
last one of a shorter month.  Each of these moves keeps the order of dates, and so does an adjustment that
overrides nothing: it is a move by years, a move by months and a move by days
(`DateAdjustment.adjust?_adding`).
-/

namespace Latent

namespace Date

variable {a b d e r s : Date} {n : Int}

/-! ## The order of dates -/

/-- By year, then by month, then by day. -/
instance : LE Date where
  le a b := a.year < b.year ∨
    a.year = b.year ∧ (a.month < b.month ∨ a.month = b.month ∧ a.day ≤ b.day)

instance : DecidableLE Date := fun a b =>
  inferInstanceAs (Decidable (a.year < b.year ∨
    a.year = b.year ∧ (a.month < b.month ∨ a.month = b.month ∧ a.day ≤ b.day)))

/-- The order looks at the month counted from year zero, then at the day. -/
theorem le_iff_monthIndex :
    a ≤ b ↔ a.monthIndex < b.monthIndex ∨ a.monthIndex = b.monthIndex ∧ a.day ≤ b.day := by
  obtain ⟨_, _, ha, ha', _⟩ := a.valid
  obtain ⟨_, _, hb, hb', _⟩ := b.valid
  show (_ < _ ∨ _ = _ ∧ _) ↔ _
  unfold monthIndex
  omega

/-- A month counted from year zero is one month of one year. -/
theorem eq_of_monthIndex (h : a.monthIndex = b.monthIndex) : a.year = b.year ∧ a.month = b.month := by
  obtain ⟨_, _, ha, ha', _⟩ := a.valid
  obtain ⟨_, _, hb, hb', _⟩ := b.valid
  unfold monthIndex at h
  omega

/-- All days of a month are before those of a later month. -/
theorem dayNumber_lt_of_monthIndex (h : a.monthIndex < b.monthIndex) : a.dayNumber < b.dayNumber := by
  obtain ⟨_, hmonth, hyear⟩ := dayOfYear_bounds a
  obtain ⟨hday, _⟩ := dayOfYear_bounds b
  obtain ⟨_, _, ha, ha', _⟩ := a.valid
  obtain ⟨_, _, hb, hb', _⟩ := b.valid
  unfold monthIndex at h
  unfold dayNumber
  rcases lt_or_ge a.year b.year with hlt | hge
  · have hyears : daysBeforeYear (a.year + 1) ≤ daysBeforeYear b.year := by
      rcases (Int.add_one_le_iff.2 hlt).lt_or_eq with hlater | heq
      · exact (daysBeforeYear_lt hlater).le
      · rw [heq]
    omega
  · have hsame : a.year = b.year := by omega
    have hmonths : daysBeforeMonth a.year (a.month + 1) ≤ daysBeforeMonth b.year b.month := by
      rw [hsame]
      exact daysBeforeMonth_le b.year (by omega)
    rw [← hsame] at hmonths ⊢
    omega

/-- **Dates are in the order of their day numbers.** -/
theorem le_iff_dayNumber : a ≤ b ↔ a.dayNumber ≤ b.dayNumber := by
  rw [le_iff_monthIndex]
  rcases lt_trichotomy a.monthIndex b.monthIndex with hlt | heq | hgt
  · have := dayNumber_lt_of_monthIndex hlt
    omega
  · obtain ⟨hyear, hmonth⟩ := eq_of_monthIndex heq
    unfold dayNumber
    rw [hyear, hmonth]
    omega
  · have := dayNumber_lt_of_monthIndex hgt
    omega

/-! ## Days -/

theorem of?_eq_some_iff {year : Int} {month day : Nat} :
    of? year month day = some d ↔ d.year = year ∧ d.month = month ∧ d.day = day := by
  constructor
  · intro h
    unfold of? at h
    split at h
    · cases h
      exact ⟨rfl, rfl, rfl⟩
    · cases h
  · rintro ⟨rfl, rfl, rfl⟩
    exact of?_self d

/-- The month that is found begins on or before the day. -/
theorem daysBeforeMonth_monthOfDay (year : Int) (day bound : Nat) :
    daysBeforeMonth year (monthOfDay year day bound) ≤ day := by
  induction bound with
  | zero => exact Nat.zero_le day
  | succ month ih =>
      unfold monthOfDay
      split
      · assumption
      · exact ih

/-- A day number is that of the date to which it leads. -/
theorem ofDayNumber?_eq_some_iff : ofDayNumber? n = some d ↔ d.dayNumber = n := by
  constructor
  · intro h
    obtain ⟨hyear, hmonth, hday⟩ := of?_eq_some_iff.1 h
    have hstart := (yearOfDay_bounds (n + epochDay)).1
    have hle := daysBeforeMonth_monthOfDay (yearOfDay (n + epochDay))
      (n + epochDay - daysBeforeYear (yearOfDay (n + epochDay))).toNat 12
    unfold dayNumber
    rw [hyear, hmonth, hday]
    omega
  · rintro rfl
    exact ofDayNumber?_dayNumber d

/-- Days are added to the day number. -/
theorem addDays?_eq_some_iff : d.addDays? n = some e ↔ e.dayNumber = d.dayNumber + n :=
  ofDayNumber?_eq_some_iff

/-- As many days further, two dates are in the order that they had. -/
theorem addDays?_mono (h : a ≤ b) (hr : a.addDays? n = some r) (hs : b.addDays? n = some s) :
    r ≤ s := by
  rw [le_iff_dayNumber] at h ⊢
  rw [addDays?_eq_some_iff.1 hr, addDays?_eq_some_iff.1 hs]
  omega

/-! ## Months -/

/-- The month of `e` is `n` months after that of `d`, and its day is the same, or the last one of a shorter
month. -/
structure IsMoved (d : Date) (n : Int) (e : Date) : Prop where
  monthIndex : e.monthIndex = d.monthIndex + n
  day : e.day = min d.day (daysInMonth e.year e.month)

/-- Months are added to the month index, and the day is kept within the month. -/
theorem addMonths?_eq_some_iff : d.addMonths? n = some e ↔ d.IsMoved n e := by
  obtain ⟨_, _, he, he', _⟩ := e.valid
  rw [addMonths?, ofMonthIndex?, of?_eq_some_iff]
  constructor
  · rintro ⟨hyear, hmonth, hday⟩
    refine ⟨?_, ?_⟩
    · unfold Date.monthIndex at *
      omega
    · rw [hday, hyear, hmonth]
  · rintro ⟨hindex, hday⟩
    have hyear : e.year = (d.monthIndex + n) / 12 := by
      unfold Date.monthIndex at *
      omega
    have hmonth : e.month = ((d.monthIndex + n) % 12).toNat + 1 := by
      unfold Date.monthIndex at *
      omega
    rw [← hyear, ← hmonth]
    exact ⟨rfl, rfl, hday⟩

/-- As many months further, two dates are in the order that they had: within a month days are cut off at the
same end. -/
theorem IsMoved.mono (h : a ≤ b) (hr : a.IsMoved n r) (hs : b.IsMoved n s) : r ≤ s := by
  have hrIndex := hr.monthIndex
  have hsIndex := hs.monthIndex
  rw [le_iff_monthIndex] at h ⊢
  rcases h with hlt | ⟨heq, hday⟩
  · exact .inl (by omega)
  · have hsame : r.monthIndex = s.monthIndex := by omega
    obtain ⟨hyear, hmonth⟩ := eq_of_monthIndex hsame
    refine .inr ⟨hsame, ?_⟩
    rw [hr.day, hs.day, hyear, hmonth]
    omega

end Date

/-! ## Adjustments that override nothing -/

namespace DateAdjustment

variable {years months days : Int} {base r : Date}

/-- Years, months and days are added. -/
def adding (years months days : Int) : DateAdjustment := ⟨.none, .none, .none, years, months, days⟩

/-- The base is left as it is. -/
theorem override?_adding : (adding years months days).override? base = some base := by
  obtain ⟨_, _, hmonth, hmonth', _⟩ := base.valid
  have hrange : InInt64 ((base.month : Int) - 1) := by
    constructor <;> omega
  have hfirst : (adding years months days).firstOfMonth? base = some base.firstOfMonth := by
    unfold firstOfMonth? adding
    simp only [Option.getD_none]
    rw [if_pos hrange, ← Int.add_sub_assoc]
    exact Date.ofMonthIndex?_eq base.firstOfMonth base.year base.month rfl rfl
  rw [override?, hfirst]
  exact Date.ofMonthIndex?_eq base base.year base.month rfl rfl

/-- Years, months and days are three moves, one after another. -/
theorem adjust?_adding_eq_some_iff : (adding years months days).adjust? base = some r ↔
    ∃ anniversary moved : Date, base.IsMoved (12 * years) anniversary ∧
      anniversary.IsMoved months moved ∧ moved.addDays? days = some r := by
  rw [adjust?, override?_adding]
  simp only [Option.bind_eq_bind, Option.bind_some, Option.bind_eq_some_iff,
    Date.addMonths?_eq_some_iff, adding]
  constructor
  · rintro ⟨anniversary, hyears, moved, hmonths, hdays⟩
    exact ⟨anniversary, moved, hyears, hmonths, hdays⟩
  · rintro ⟨anniversary, moved, hyears, hmonths, hdays⟩
    exact ⟨anniversary, hyears, moved, hmonths, hdays⟩

/-- The day is cut off twice: at the end of the base's month in the other year, and at the end of the last
month. -/
theorem day_adjust?_adding (h : (adding years months 0).adjust? base = some r) :
    r.monthIndex = base.monthIndex + 12 * years + months ∧
      r.day = min (min base.day (daysInMonth (base.year + years) base.month))
        (daysInMonth r.year r.month) := by
  obtain ⟨anniversary, moved, hyears, hmonths, hdays⟩ := adjust?_adding_eq_some_iff.1 h
  obtain rfl : moved = r := by
    rw [Date.addDays?_zero] at hdays
    exact Option.some.inj hdays
  have hindex := hyears.monthIndex
  have hindex' := hmonths.monthIndex
  refine ⟨by omega, ?_⟩
  obtain ⟨hyear, hmonth⟩ : anniversary.year = base.year + years ∧ anniversary.month = base.month := by
    obtain ⟨_, _, hpos, hle, _⟩ := base.valid
    obtain ⟨_, _, hpos', hle', _⟩ := anniversary.valid
    unfold Date.monthIndex at hindex
    omega
  rw [hmonths.day, hyears.day, hyear, hmonth]

/-- Two bases keep their order. -/
theorem adjust?_adding_mono {a b s : Date} (h : a ≤ b)
    (hr : (adding years months days).adjust? a = some r)
    (hs : (adding years months days).adjust? b = some s) : r ≤ s := by
  obtain ⟨_, _, hyears, hmonths, hdays⟩ := adjust?_adding_eq_some_iff.1 hr
  obtain ⟨_, _, hyears', hmonths', hdays'⟩ := adjust?_adding_eq_some_iff.1 hs
  have hanniversary := hyears.mono h hyears'
  exact Date.addDays?_mono (hmonths.mono hanniversary hmonths') hdays hdays'

/-- **Additions move whole months, cut the day off at the end of a month, and keep the order of dates.**
Years and months add up to months; the day is cut off at the end of the base's month in the other year and
then at the end of the last month.  With days added as well, two bases are in the order that they had. -/
theorem adjust?_adding (years months days : Int) :
    (∀ base r : Date, (adding years months 0).adjust? base = some r →
      12 * r.year + r.month = 12 * base.year + base.month + 12 * years + months ∧
        r.day = min (min base.day (daysInMonth (base.year + years) base.month))
          (daysInMonth r.year r.month)) ∧
      ∀ a b r s : Date, a ≤ b → (adding years months days).adjust? a = some r →
        (adding years months days).adjust? b = some s → r ≤ s := by
  refine ⟨fun base r h => ?_, fun a b r s hle hr hs => adjust?_adding_mono hle hr hs⟩
  obtain ⟨hindex, hday⟩ := day_adjust?_adding h
  refine ⟨?_, hday⟩
  unfold Date.monthIndex at hindex
  omega

/-- A year and a month after a leap day the day is the 28th, for it was cut off after the year; a month and a
day after the last days of January two dates meet. -/
theorem adjust?_adding_leapDay :
    let base : Date := ⟨2024, 2, 29, by decide⟩
    let r : Date := ⟨2025, 3, 28, by decide⟩
    let a : Date := ⟨2024, 1, 30, by decide⟩
    let b : Date := ⟨2024, 1, 31, by decide⟩
    let s : Date := ⟨2024, 3, 1, by decide⟩
    (adding 1 1 0).adjust? base = some r ∧
      (12 * r.year + r.month = 12 * base.year + base.month + 12 * 1 + 1 ∧
        r.day = min (min base.day (daysInMonth (base.year + 1) base.month))
          (daysInMonth r.year r.month)) ∧
      a ≤ b ∧ (adding 0 1 1).adjust? a = some s ∧ (adding 0 1 1).adjust? b = some s ∧ s ≤ s := by
  intro base r a b s
  have hr : (adding 1 1 0).adjust? base = some r := by decide
  have ha : (adding 0 1 1).adjust? a = some s := by decide
  have hb : (adding 0 1 1).adjust? b = some s := by decide
  have hle : a ≤ b := by decide
  exact ⟨hr, (adjust?_adding 1 1 0).1 base r hr, hle, ha, hb, (adjust?_adding 0 1 1).2 a b s s hle ha hb⟩

end DateAdjustment

end Latent
