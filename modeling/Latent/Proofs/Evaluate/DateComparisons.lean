import Latent.Proofs.Calendar.Milliseconds
import Latent.Proofs.Evaluate.Comparisons
import Latent.Proofs.Evaluate.Operators

/-!
# Comparisons of dates

Dates are compared by their milliseconds, which are exact, so the verdicts on two dates are those of the
calendar (`Scope.compares_date`): unlike date-times, dates are never blurred.
-/

namespace Latent

/-! ## The verdicts of the calendar -/

/-- Whether the first date is the second, is after it, is before it, and is not before it. -/
def Verdicts.ofDates (a b : Date) : Verdicts := ⟨a = b, b < a, a < b, b ≤ a⟩

/-- Of two dates one is earlier, or they are the same. -/
theorem Verdicts.isCoherent_ofDates (a b : Date) : (ofDates a b).IsCoherent := by
  unfold IsCoherent count ofDates
  simp only [Date.eq_iff_dayNumber, Date.lt_iff_dayNumber, Date.le_iff_dayNumber]
  rcases Int.lt_trichotomy a.dayNumber b.dayNumber with hlt | heq | hgt
  · simp [hlt, hlt.ne, not_lt.2 hlt.le, not_le.2 hlt]
  · simp [heq]
  · simp [hgt, hgt.ne', hgt.le, not_lt.2 hgt.le]

/-- A date exceeds those before it. -/
theorem Value.exceeds_date (inclusive : Bool) (a b : Date) : (date a).exceeds inclusive (date b)
    = if inclusive then decide (b ≤ a) else decide (b < a) := by
  show (if inclusive then b.millis.le a.millis else b.millis.lt a.millis) = _
  rw [Date.le_millis, Date.lt_millis]

namespace Scope

variable (scope : Scope)

/-! ## Fields that hold dates -/

section

variable {fields : Fields} {a b : Date} (ha : fields.value "s1" = .date a) (hb : fields.value "s2" = .date b)

include ha hb

theorem apply_equal_date : scope.apply .equal fields = .boolean (decide (a = b)) := by
  show Value.boolean ((fields.value "s1").looselyEqual (fields.value "s2")) = _
  rw [ha, hb]
  rfl

theorem apply_greater_date : scope.apply .greater fields
    = .boolean (if (fields.value "e").isTruthy then decide (b ≤ a) else decide (b < a)) := by
  rw [apply_greater, ha, hb, Value.exceeds_date]

theorem apply_less_date : scope.apply .less fields
    = .boolean (if (fields.value "e").isTruthy then decide (a ≤ b) else decide (a < b)) := by
  rw [apply_less, ha, hb, Value.exceeds_date]

end

/-! ## Calls on dates -/

/-- The calls of the comparisons of two dates are accepted, and their results are those of the calendar. -/
theorem compares_literals (a b : Date) : scope.Compares (.date a) (.date b) (.ofDates a b) := by
  refine ⟨?_, ?_, ?_, ?_⟩
  · have hnode : Node.ofArguments .equal [.date a, .date b] = .ok (.node .equal [.date a, .date b]) := rfl
    rw [call_of_ofArguments hnode]
    exact congrArg Except.ok (scope.apply_equal_date rfl rfl)
  · rw [call_comparison (.inl rfl) rfl rfl rfl]
    exact congrArg Except.ok (scope.apply_greater_date rfl rfl)
  · rw [call_comparison (.inr rfl) rfl rfl rfl]
    exact congrArg Except.ok (scope.apply_less_date rfl rfl)
  · rw [call_comparison (.inl rfl) rfl rfl rfl]
    exact congrArg Except.ok (scope.apply_greater_date rfl rfl)

/-- **Dates are compared exactly.**  The microseconds of a date fit 64 bits and are exact in binary64; so are
its milliseconds, which are those of the days since 1970-01-01.  Hence the comparisons of fields that hold
two dates, and the calls on two dates, agree with the order of the calendar, and exactly one of equal,
greater and less holds. -/
theorem compares_dates (a b : Date) :
    (InInt64 (DateTime.atMidnight a).microNumber ∧
      (Binary64.ofInt (DateTime.atMidnight a).microNumber).toInt? = some (DateTime.atMidnight a).microNumber ∧
      a.millis.toInt? = some (86400000 * a.dayNumber)) ∧
    ((default : Date).dayNumber = 0 ∧ (a.IsFollowedBy b → b.dayNumber = a.dayNumber + 1)) ∧
    (∀ fields : Fields, fields.value "s1" = .date a → fields.value "s2" = .date b →
      scope.apply .equal fields = .boolean (decide (a = b)) ∧
      scope.apply .greater fields
        = .boolean (if (fields.value "e").isTruthy then decide (b ≤ a) else decide (b < a)) ∧
      scope.apply .less fields
        = .boolean (if (fields.value "e").isTruthy then decide (a ≤ b) else decide (a < b))) ∧
    scope.Compares (.date a) (.date b) (.ofDates a b) ∧ (Verdicts.ofDates a b).IsCoherent := by
  refine ⟨⟨Date.inInt64_microNumber a, ?_, ?_⟩, ⟨by decide, Date.dayNumber_of_isFollowedBy⟩,
    fun fields ha hb => ⟨scope.apply_equal_date ha hb, scope.apply_greater_date ha hb,
      scope.apply_less_date ha hb⟩, scope.compares_literals a b, Verdicts.isCoherent_ofDates a b⟩
  · rw [Date.microNumber_atMidnight]
    exact Binary64.toInt?_ofInt (Date.isExact_micros a)
  · rw [Date.millis_eq, Binary64.toInt?_ofInt (Date.isExact_millis a), Int.mul_comm]
    rfl

/-- The first date of the calendar and the last one. -/
theorem compares_dates_ends :
    let a : Date := ⟨-262143, 1, 1, by decide⟩
    let b : Date := ⟨262142, 12, 31, by decide⟩
    let fields : Fields := [("s2", .date b), ("s1", .date a), ("e", .string "x")]
    (fields.value "s1" = .date a ∧ fields.value "s2" = .date b) ∧
      a.millis.toInt? = some (-8334601228800000) ∧ b.millis.toInt? = some 8210266790400000 ∧
      (default : Scope).apply .less fields = .boolean true ∧
      (default : Scope).Compares (.date a) (.date b) ⟨false, false, true, false⟩ := by
  intro a b fields
  have hfirst := compares_dates default a b
  have hlast := compares_dates default b a
  obtain ⟨-, -, hless⟩ := hfirst.2.2.1 fields rfl rfl
  exact ⟨⟨rfl, rfl⟩, hfirst.1.2.2.trans (by decide), hlast.1.2.2.trans (by decide),
    hless.trans (congrArg Value.boolean (by decide)), hfirst.2.2.2.1⟩

end Scope

end Latent
