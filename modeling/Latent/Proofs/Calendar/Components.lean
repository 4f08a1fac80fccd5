import Latent.Proofs.Calendar.Duration
import Latent.Proofs.Calendar.Words

/-!
# The components of a duration in words

A duration is read as whole seconds and as the nanoseconds that are left of them, both towards zero, so that
the rest of a negative duration is negative.  Where its microseconds are, a second is borrowed, and the seconds
are divided by those of a day, rounding down.  No number on the way leaves its word, and the result is the split
of the whole microseconds (`Duration.componentsInWords?_eq`).
-/

namespace Latent

namespace Duration

/-- Whole seconds, towards zero. -/
def wholeSeconds (d : Duration) : Int := d.nanos.tdiv 1000000000

/-- What is left of the whole seconds, with the sign of the duration. -/
def restNanos (d : Duration) : Int := d.nanos.tmod 1000000000

/-- The components in words: seconds and microseconds of 64 bits, nanoseconds of 32. -/
def componentsInWords? (d : Duration) : Option Components := do
  let seconds ← fitting? 64 d.wholeSeconds
  let nanos ← fitting? 32 d.restNanos
  let micros := nanos.tdiv 1000
  if micros < 0 then
    let micros ← fitting? 64 (micros + 1000000)
    let seconds ← fitting? 64 (seconds - 1)
    return ⟨seconds / 86400, seconds % 86400, micros⟩
  else return ⟨seconds / 86400, seconds % 86400, micros⟩

/-- The whole seconds and the microseconds of the rest are the whole microseconds, and have one sign. -/
theorem wholeSeconds_add_restNanos (d : Duration) :
    d.wholeSeconds * 1000000 + d.restNanos.tdiv 1000 = d.micros ∧ (d.restNanos.tdiv 1000).natAbs < 1000000 := by
  unfold wholeSeconds restNanos micros
  rcases Int.le_total 0 d.nanos with hpos | hneg
  · rw [Int.tdiv_eq_ediv_of_nonneg hpos, Int.tdiv_eq_ediv_of_nonneg hpos, Int.tmod_eq_emod_of_nonneg hpos,
      Int.tdiv_eq_ediv_of_nonneg (Int.emod_nonneg _ (by decide))]
    omega
  · -- a negative duration is split as the opposite one is
    obtain ⟨n, hn⟩ : ∃ n, d.nanos = -n := ⟨-d.nanos, (Int.neg_neg _).symm⟩
    have hpos : 0 ≤ n := by omega
    rw [hn, Int.neg_tdiv, Int.neg_tdiv, Int.neg_tmod, Int.neg_tdiv, Int.tdiv_eq_ediv_of_nonneg hpos,
      Int.tdiv_eq_ediv_of_nonneg hpos, Int.tmod_eq_emod_of_nonneg hpos,
      Int.tdiv_eq_ediv_of_nonneg (Int.emod_nonneg _ (by decide))]
    omega

/-- The whole seconds fit in 64 bits with room to spare. -/
theorem natAbs_wholeSeconds_lt (d : Duration) : d.wholeSeconds.natAbs < 10000000000000000 := by
  obtain ⟨hlow, hhigh⟩ := d.inRange
  unfold longest at hlow hhigh
  unfold wholeSeconds
  rw [Int.natAbs_tdiv]
  show d.nanos.natAbs / 1000000000 < _
  omega

theorem natAbs_restNanos_lt (d : Duration) : d.restNanos.natAbs < 1000000000 := by
  unfold restNanos
  rw [Int.natAbs_tmod]
  exact Nat.mod_lt _ (by decide)

/-- **In words the components are those of the whole microseconds.** -/
theorem componentsInWords?_eq (d : Duration) : d.componentsInWords? = some d.components := by
  have hseconds := natAbs_wholeSeconds_lt d
  have hnanos := natAbs_restNanos_lt d
  obtain ⟨hsum, hmicros⟩ := wholeSeconds_add_restNanos d
  unfold componentsInWords? components microsPerDay secondsPerDay
  rw [fitting?_of_natAbs_lt 64 (by omega), fitting?_of_natAbs_lt 32 (by omega), ← hsum]
  simp only [Option.bind_eq_bind, Option.bind_some, Option.pure_def]
  generalize d.wholeSeconds = seconds at *
  generalize d.restNanos.tdiv 1000 = micros at *
  split
  · -- the borrowed second makes the microseconds those of a whole second less
    rw [fitting?_of_natAbs_lt 64 (by omega), Option.bind_some,
      fitting?_of_natAbs_lt 64 (by omega), Option.bind_some]
    congr 2 <;> omega
  · congr 2 <;> omega

/-- Durations of whole microseconds are told apart by their components. -/
theorem components_inj {d e : Duration} (hd : d.IsWholeMicro) (he : e.IsWholeMicro) :
    d.components = e.components ↔ d = e := by
  refine ⟨fun h => ?_, congrArg components⟩
  have hmicros : d.micros = e.micros := by rw [← sum_components d, ← sum_components e, h]
  have hnanos : d.nanos = e.nanos := by rw [← micros_mul hd, ← micros_mul he, hmicros]
  cases d
  cases e
  cases hnanos
  rfl

/-- **The components are an exact split.**  In words no number on the way is out of range; seconds and
microseconds are in their ranges; the components add up to the microseconds of the duration, rounded towards
zero; and they tell durations of whole microseconds apart. -/
theorem components_split (d : Duration) :
    d.componentsInWords? = some d.components ∧
      (0 ≤ d.components.seconds ∧ d.components.seconds < 86400) ∧
      (0 ≤ d.components.micros ∧ d.components.micros < 1000000) ∧
      d.components.days * 86400 * 1000000 + d.components.seconds * 1000000 + d.components.micros
        = d.nanos.tdiv 1000 ∧
      ∀ e : Duration, d.IsWholeMicro → e.IsWholeMicro → (d.components = e.components ↔ d = e) := by
  obtain ⟨hseconds, hmicros⟩ := components_bounds d
  refine ⟨componentsInWords?_eq d, hseconds, hmicros, ?_, fun e hd he => components_inj hd he⟩
  rw [Int.mul_assoc]
  exact sum_components d

/-- A microsecond before zero and one before a day have the same seconds and microseconds, and not the same
days. -/
theorem components_split_negative :
    let d : Duration := ⟨-1000, by decide⟩
    let e : Duration := ⟨86399999999000, by decide⟩
    d.componentsInWords? = some ⟨-1, 86399, 999999⟩ ∧ e.componentsInWords? = some ⟨0, 86399, 999999⟩ ∧
      d.IsWholeMicro ∧ e.IsWholeMicro ∧ (d.components = e.components ↔ d = e) := by
  intro d e
  have hd : d.IsWholeMicro := by decide
  have he : e.IsWholeMicro := by decide
  obtain ⟨hwords, _, _, _, hinjective⟩ := components_split d
  exact ⟨hwords, (components_split e).1, hd, he, hinjective e hd he⟩

end Duration

end Latent
