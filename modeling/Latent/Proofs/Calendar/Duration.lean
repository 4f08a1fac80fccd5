import Latent.Calendar.Duration
import Latent.Proofs.Binary64.Exact

/-!
# Durations and their components

The days, seconds and microseconds of a duration of whole microseconds, recombined in binary64, give
the duration again when no step of the sum is rounded.  Up to `2^53` microseconds none is.
-/

namespace Latent

namespace Duration

/-- Whole microseconds. -/
def IsWholeMicro (d : Duration) : Prop := d.nanos % 1000 = 0

instance (d : Duration) : Decidable d.IsWholeMicro := inferInstanceAs (Decidable (_ = _))

/-- Nothing is lost when whole microseconds are counted. -/
theorem micros_mul {d : Duration} (h : d.IsWholeMicro) : d.micros * 1000 = d.nanos := by
  unfold IsWholeMicro at h
  unfold micros
  obtain ⟨m, hm⟩ := Int.dvd_of_emod_eq_zero h
  rw [hm, Int.mul_tdiv_cancel_left m (by decide), Int.mul_comm]

/-- The components are a split of the microseconds. -/
theorem sum_components (d : Duration) :
    d.components.days * 86400000000 + d.components.seconds * 1000000 + d.components.micros
      = d.micros := by
  unfold components microsPerDay secondsPerDay
  dsimp only
  omega

theorem ofNanos?_nanos (d : Duration) : ofNanos? d.nanos = some d := dif_pos d.inRange

/-- Seconds and microseconds are what is left of a day and of a second. -/
theorem components_bounds (d : Duration) :
    (0 ≤ d.components.seconds ∧ d.components.seconds < 86400) ∧
      0 ≤ d.components.micros ∧ d.components.micros < 1000000 := by
  unfold components secondsPerDay
  dsimp only
  omega

/-- The sum of the components in binary64. -/
def recombined? (d : Duration) : Option Duration :=
  ofComponents? (.ofInt d.components.days) (.ofInt d.components.seconds) (.ofInt d.components.micros)

/-- Recombining the components loses nothing: binary64 holds the microseconds, and they are the sum of
the whole seconds, rounded, and the rest. -/
def IsRecombined (d : Duration) : Prop :=
  d.micros.natAbs < 2 ^ 63 ∧ Binary64.IsExact d.micros ∧
    Binary64.ofInt (d.micros - d.components.micros) + Binary64.ofInt d.components.micros
      = Binary64.ofInt d.micros

instance (d : Duration) : Decidable d.IsRecombined := inferInstanceAs (Decidable (_ ∧ _))

/-- Short of `2^59` microseconds binary64 holds the whole seconds. -/
theorem isExact_wholeSeconds {d : Duration} (hsize : d.micros.natAbs + 1000000 ≤ 2 ^ 59) :
    Binary64.IsExact (d.micros - d.components.micros) := by
  obtain ⟨_, hmicros0, hmicros1⟩ := components_bounds d
  have hsum := sum_components d
  -- whole seconds are a multiple of a power of two
  have hexact := Binary64.isExact_mul_two_pow
    (m := d.components.days * 1350000000 + d.components.seconds * 15625) (k := 6) (by omega) (by omega)
  have hsplit : d.micros - d.components.micros
      = (d.components.days * 1350000000 + d.components.seconds * 15625) * 2 ^ 6 := by omega
  rwa [hsplit]

/-- There the sum of the whole seconds and the rest is rounded once. -/
theorem ofInt_wholeSeconds_add {d : Duration} (hsize : d.micros.natAbs + 1000000 ≤ 2 ^ 59) :
    Binary64.ofInt (d.micros - d.components.micros) + Binary64.ofInt d.components.micros
      = Binary64.ofInt d.micros := by
  obtain ⟨_, hmicros0, hmicros1⟩ := components_bounds d
  rw [Binary64.ofInt_add (isExact_wholeSeconds hsize) (Binary64.isExact_of_le (by omega)),
    Int.sub_add_cancel]

/-- Short of `2^59` microseconds nothing is lost of a number that binary64 holds. -/
theorem isRecombined_of_isExact {d : Duration} (hsize : d.micros.natAbs + 1000000 ≤ 2 ^ 59)
    (h : Binary64.IsExact d.micros) : d.IsRecombined :=
  ⟨by omega, h, ofInt_wholeSeconds_add hsize⟩

/-- Short of `2^59` microseconds no other durations are recombined. -/
theorem isRecombined_iff_isExact {d : Duration} (hsize : d.micros.natAbs + 1000000 ≤ 2 ^ 59) :
    d.IsRecombined ↔ Binary64.IsExact d.micros :=
  ⟨fun h => h.2.1, isRecombined_of_isExact hsize⟩

/-- Up to `2^53` microseconds nothing is rounded. -/
theorem isRecombined_of_le {d : Duration} (h : d.micros.natAbs ≤ 2 ^ 53) : d.IsRecombined :=
  isRecombined_of_isExact (by omega) (Binary64.isExact_of_le h)

/-- The sum of the components is that of the whole seconds, rounded, and the rest. -/
theorem sum_components_binary64 {d : Duration} (hsize : d.micros.natAbs ≤ 2 ^ 63) :
    Binary64.ofInt d.components.days * 86400000000 + Binary64.ofInt d.components.seconds * 1000000
      + Binary64.ofInt d.components.micros
      = Binary64.ofInt (d.micros - d.components.micros) + Binary64.ofInt d.components.micros := by
  have hsum := sum_components d
  obtain ⟨⟨hseconds0, hseconds1⟩, hmicros0, hmicros1⟩ := components_bounds d
  generalize d.components.days = days at *
  generalize d.components.seconds = seconds at *
  generalize d.components.micros = micros at *
  have hwhole : d.micros - micros = days * 86400000000 + seconds * 1000000 := by omega
  -- days count multiples of a power of two, so their product is exact
  have hdayMicros : Binary64.IsExact (days * 86400000000) := by
    have h := Binary64.isExact_mul_two_pow (m := days * 10546875) (k := 13) (by omega) (by omega)
    rwa [Int.mul_assoc] at h
  have hsecondMicros : Binary64.IsExact (seconds * 1000000) :=
    Binary64.isExact_of_le (by omega)
  show Binary64.ofInt days * Binary64.ofInt 86400000000
    + Binary64.ofInt seconds * Binary64.ofInt 1000000 + Binary64.ofInt micros = _
  rw [Binary64.ofInt_mul (Binary64.isExact_of_le (by omega)) (Binary64.isExact_of_le (by decide))
      (by decide) hdayMicros,
    Binary64.ofInt_mul (Binary64.isExact_of_le (by omega)) (Binary64.isExact_of_le (by decide))
      (by decide) hsecondMicros,
    Binary64.ofInt_add hdayMicros hsecondMicros, hwhole]

/-- The components lead back to the duration when nothing is lost. -/
theorem recombined?_eq {d : Duration} (hwhole : d.IsWholeMicro) (h : d.IsRecombined) :
    d.recombined? = some d := by
  obtain ⟨hsize, hexact, hsum⟩ := h
  have hbelow : decide (d.micros.natAbs < 2 ^ 63) = true := decide_eq_true hsize
  unfold recombined? ofComponents?
  dsimp only
  rw [sum_components_binary64 hsize.le, hsum, Binary64.belowPowerOfTwo_ofInt hexact, hbelow,
    if_pos rfl, Binary64.nearestInt?_ofInt hexact, Option.bind_some, micros_mul hwhole,
    ofNanos?_nanos]

/-- A duration of components is that of the whole number nearest to their sum. -/
theorem of_ofComponents? {x y z : Binary64} {d : Duration} (h : ofComponents? x y z = some d) :
    (x * 86400000000 + y * 1000000 + z).belowPowerOfTwo 63 = true ∧
      (x * 86400000000 + y * 1000000 + z).nearestInt? = some d.micros := by
  unfold ofComponents? at h
  dsimp only at h
  split at h
  · rename_i hbelow
    obtain ⟨n, hnear, hof⟩ := Option.bind_eq_some_iff.1 h
    have hmicros : d.micros = n := by
      unfold ofNanos? at hof
      split at hof
      · cases hof
        exact Int.mul_tdiv_cancel n (by decide)
      · cases hof
    rw [hmicros]
    exact ⟨hbelow, hnear⟩
  · cases h

/-- **The components lead back to exactly the durations that are recombined without loss.** -/
theorem recombined?_eq_iff {d : Duration} (hwhole : d.IsWholeMicro) :
    d.recombined? = some d ↔ d.IsRecombined := by
  refine ⟨fun h => ?_, recombined?_eq hwhole⟩
  obtain ⟨hbelow, hnear⟩ := of_ofComponents? h
  have hsize := Binary64.natAbs_lt_of_nearestInt? (by decide) hnear hbelow
  rw [sum_components_binary64 hsize.le] at hnear
  have hexact := Binary64.isExact_of_nearestInt? hnear
  rcases Nat.lt_or_ge (2 ^ 53) d.micros.natAbs with hlarge | hsmall
  · refine ⟨hsize, hexact, (Binary64.ofInt_of_toInt? (Binary64.toInt?_of_nearestInt? hnear hlarge) ?_).symm⟩
    intro hzero
    have hnearest : (Binary64.zero true).nearestInt? = some 0 := by decide +kernel
    rw [hzero, hnearest] at hnear
    rw [← Option.some.inj hnear] at hlarge
    exact absurd hlarge (by decide)
  · exact ⟨hsize, hexact, ofInt_wholeSeconds_add (by omega)⟩

end Duration

end Latent
