import TransferLedger.Duration.Split

/-! The waits between attempts, in exact numbers.

Scaling a duration in words gives the product of its nanoseconds or the greatest duration.  No
cap is above the greatest duration, so behind the cap the two cannot be told apart, and the
waits are those of exact arithmetic.
-/

namespace TransferLedger

namespace Duration.Split

variable {left right split : Split} {duration : Duration} {factor : UInt32} {number : Nat}

def nanos (split : Split) : Nat :=
  split.seconds.toNat * 1000000000 + split.subsecond.toNat

theorem nanos_inj : left.nanos = right.nanos ↔ left = right := by
  constructor
  · intro same
    have belowLeft := left.below
    have belowRight := right.below
    simp only [nanos] at same
    have seconds : left.seconds = right.seconds := UInt64.toNat_inj.1 (by omega)
    have subsecond : left.subsecond = right.subsecond := UInt32.toNat_inj.1 (by omega)
    obtain ⟨_, _, _⟩ := left
    obtain ⟨_, _, _⟩ := right
    cases seconds
    cases subsecond
    rfl
  · rintro rfl
    rfl

theorem nanos_ofDuration (duration : Duration) : (ofDuration duration).nanos = duration.nanos := by
  have bounded := duration.bounded
  simp only [Duration.greatest] at bounded
  have seconds : duration.nanos / 1000000000 < UInt64.size := by
    simp only [UInt64.size]
    omega
  have subsecond : duration.nanos % 1000000000 < UInt32.size := by
    simp only [UInt32.size]
    omega
  simp only [nanos, ofDuration, Duration.seconds, Duration.subsecond,
    UInt64.toNat_ofNat_of_lt' seconds, UInt32.toNat_ofNat_of_lt' subsecond]
  omega

theorem word?_eq_some (fits : number < UInt64.size) : word? number = some (UInt64.ofNat number) :=
  if_pos fits

theorem word?_eq_none (excess : UInt64.size ≤ number) : word? number = none :=
  if_neg (Nat.not_lt.2 excess)

theorem product_lt (split : Split) (factor : UInt32) :
    split.subsecond.toNat * factor.toNat < UInt64.size := by
  have below : split.subsecond.toNat < UInt32.size := split.subsecond.toNat_lt
  have small : factor.toNat < UInt32.size := factor.toNat_lt
  exact Nat.mul_lt_mul_of_lt_of_lt below small

theorem toNat_product (split : Split) (factor : UInt32) :
    (split.subsecond.toUInt64 * factor.toUInt64).toNat =
      split.subsecond.toNat * factor.toNat := by
  rw [UInt64.toNat_mul, UInt32.toNat_toUInt64, UInt32.toNat_toUInt64]
  exact Nat.mod_eq_of_lt (product_lt split factor)

theorem exact_product (split : Split) (factor : UInt32) :
    split.nanos * factor.toNat = split.seconds.toNat * factor.toNat * 1000000000 +
      split.subsecond.toNat * factor.toNat := by
  rw [nanos, Nat.add_mul, Nat.mul_right_comm]

/-- Seconds and nanoseconds with the carry between them make the exact product. -/
theorem scale?_eq_some (fits : split.nanos * factor.toNat ≤ Duration.greatest) :
    ∃ scaled, split.scale? factor = some scaled ∧
      scaled.nanos = split.nanos * factor.toNat := by
  have product := toNat_product split factor
  have productBound := product_lt split factor
  have exact := exact_product split factor
  rw [exact] at fits ⊢
  simp only [Duration.greatest] at fits
  have whole : split.seconds.toNat * factor.toNat < UInt64.size := by
    simp only [UInt64.size]
    omega
  have carried : split.seconds.toNat * factor.toNat +
      (split.subsecond.toUInt64 * factor.toUInt64 / 1000000000).toNat < UInt64.size := by
    rw [UInt64.toNat_div, product]
    change _ + _ / 1000000000 < _
    simp only [UInt64.size]
    omega
  have scaled := UInt64.toNat_ofNat_of_lt' whole
  simp only [scale?, word?_eq_some whole, scaled, word?_eq_some carried, Option.bind_eq_bind,
    Option.bind_some, Option.some.injEq, exists_eq_left', nanos]
  rw [UInt64.toNat_ofNat_of_lt' carried, UInt64.toNat_toUInt32, UInt64.toNat_div,
    UInt64.toNat_mod, product]
  change (_ + _ / 1000000000) * _ + _ % 1000000000 % 4294967296 = _
  omega

theorem scale?_eq_none (excess : Duration.greatest < split.nanos * factor.toNat) :
    split.scale? factor = none := by
  have product := toNat_product split factor
  rw [exact_product split factor] at excess
  simp only [Duration.greatest] at excess
  by_cases whole : split.seconds.toNat * factor.toNat < UInt64.size
  · have carried : UInt64.size ≤ split.seconds.toNat * factor.toNat +
        (split.subsecond.toUInt64 * factor.toUInt64 / 1000000000).toNat := by
      rw [UInt64.toNat_div, product]
      change _ ≤ _ + _ / 1000000000
      simp only [UInt64.size]
      omega
    have scaled := UInt64.toNat_ofNat_of_lt' whole
    simp only [scale?, word?_eq_some whole, scaled, word?_eq_none carried, Option.bind_eq_bind,
      Option.bind_some, Option.bind_none]
  · simp only [scale?, word?_eq_none (Nat.not_lt.1 whole), Option.bind_eq_bind, Option.bind_none]

/-- The exact product is missed only where no duration is that long. -/
theorem nanos_scale (split : Split) (factor : UInt32) :
    (split.scale factor).nanos = Nat.min (split.nanos * factor.toNat) Duration.greatest := by
  by_cases fits : split.nanos * factor.toNat ≤ Duration.greatest
  · obtain ⟨scaled, done, exact⟩ := scale?_eq_some fits
    rw [scale, done, Option.getD_some, exact]
    exact (Nat.min_eq_left fits).symm
  · have excess := Nat.not_le.1 fits
    rw [scale, scale?_eq_none excess, Option.getD_none]
    exact (Nat.min_eq_right (Nat.le_of_lt excess)).symm

theorem isAtMost_iff : left.isAtMost right = true ↔ left.nanos ≤ right.nanos := by
  have belowLeft := left.below
  have belowRight := right.below
  simp only [isAtMost, nanos, Bool.or_eq_true, Bool.and_eq_true, decide_eq_true_eq, beq_iff_eq,
    UInt64.lt_iff_toNat_lt, UInt32.le_iff_toNat_le, ← UInt64.toNat_inj]
  omega

theorem nanos_min (left right : Split) :
    (left.min right).nanos = Nat.min left.nanos right.nanos := by
  rw [min]
  split
  next atMost => exact (Nat.min_eq_left (isAtMost_iff.1 atMost)).symm
  next above =>
    have less : right.nanos ≤ left.nanos := by
      rw [isAtMost_iff] at above
      omega
    exact (Nat.min_eq_right less).symm

end Duration.Split

namespace RetryPolicy

variable {policy : RetryPolicy} {attempt later : UInt32} {doublings : Nat}

theorem not_first_iff : ¬ attempt ≤ 1 ↔ 2 ≤ attempt := by
  rw [UInt32.le_iff_toNat_le, UInt32.le_iff_toNat_le]
  change ¬ attempt.toNat ≤ 1 ↔ 2 ≤ attempt.toNat
  omega

theorem delay_first (first : attempt ≤ 1) : policy.delay attempt = .zero :=
  if_pos first

/-- No cap is above the greatest duration, so the cap hides where scaling stops. -/
theorem nanos_delay (further : 2 ≤ attempt) :
    (policy.delay attempt).nanos = Nat.min policy.maxRetryDelay.nanos
      (policy.retryDelay.nanos * Nat.min (Nat.pow 2 (attempt.toNat - 2)) 4294967295) := by
  have bounded := policy.maxRetryDelay.bounded
  rw [delay, if_neg (not_first_iff.2 further), Duration.nanos_min, Duration.scale, factor_eq_min]
  change min (min _ _) _ = min _ _
  omega

/-- Up to attempt 33 a factor of 32 bits holds every doubling. -/
theorem factor_exact (soon : doublings ≤ 31) :
    Nat.min (Nat.pow 2 doublings) 4294967295 = Nat.pow 2 doublings := by
  have small : Nat.pow 2 doublings ≤ Nat.pow 2 31 := Nat.pow_le_pow_right (by decide) soon
  exact Nat.min_eq_left (Nat.le_trans small (by decide))

theorem nanos_delay_le : (policy.delay attempt).nanos ≤ policy.maxRetryDelay.nanos := by
  by_cases first : attempt ≤ 1
  · rw [delay_first first]
    exact Nat.zero_le _
  · rw [delay, if_neg first, Duration.nanos_min]
    exact Nat.min_le_right _ _

theorem nanos_delay_mono (ordered : attempt ≤ later) :
    (policy.delay attempt).nanos ≤ (policy.delay later).nanos := by
  by_cases first : attempt ≤ 1
  · rw [delay_first first]
    exact Nat.zero_le _
  · have further := not_first_iff.1 first
    have behind : attempt.toNat ≤ later.toNat := UInt32.le_iff_toNat_le.1 ordered
    have power : Nat.pow 2 (attempt.toNat - 2) ≤ Nat.pow 2 (later.toNat - 2) :=
      Nat.pow_le_pow_right (by decide) (by omega)
    have capped : Nat.min (Nat.pow 2 (attempt.toNat - 2)) 4294967295 ≤
        Nat.min (Nat.pow 2 (later.toNat - 2)) 4294967295 := by
      change min _ _ ≤ min _ _
      omega
    have scaled := Nat.mul_le_mul_left policy.retryDelay.nanos capped
    rw [nanos_delay further, nanos_delay (UInt32.le_trans further ordered)]
    change min _ _ ≤ min _ _
    omega

theorem toNat_factor (doublings : Nat) :
    (UInt32.ofNat (factor doublings)).toNat = factor doublings := by
  apply UInt32.toNat_ofNat_of_lt'
  rw [factor_eq_min]
  exact Nat.lt_of_le_of_lt (Nat.min_le_right _ _) (by decide)

theorem delayInWords_eq (policy : RetryPolicy) (attempt : UInt32) :
    policy.delayInWords attempt = .ofDuration (policy.delay attempt) := by
  by_cases first : attempt ≤ 1
  · rw [delayInWords, if_pos first, delay_first first]
  · have doublings : (attempt - 2).toNat = attempt.toNat - 2 :=
      UInt32.toNat_sub_of_le attempt 2 (not_first_iff.1 first)
    apply Duration.Split.nanos_inj.1
    rw [delayInWords, if_neg first, delay, if_neg first, Duration.Split.nanos_min,
      Duration.Split.nanos_scale, toNat_factor, doublings]
    simp only [Duration.Split.nanos_ofDuration, Duration.nanos_min]
    rfl

/-- The wait before an attempt in exact numbers: nothing before the first, and from then on the
first wait times a power of two, up to the cap.  The power stops at the greatest factor of 32
bits, which attempts up to 33 do not come to; that no duration is above the greatest one is never
seen, also where the wait is worked out in words.  Later attempts never wait less. -/
theorem delay_exact (policy : RetryPolicy) (attempt : UInt32) :
    (attempt ≤ 1 → policy.delay attempt = .zero) ∧
    (2 ≤ attempt → (policy.delay attempt).nanos = Nat.min policy.maxRetryDelay.nanos
      (policy.retryDelay.nanos * Nat.min (Nat.pow 2 (attempt.toNat - 2)) (UInt32.size - 1))) ∧
    (2 ≤ attempt → attempt ≤ 33 → (policy.delay attempt).nanos =
      Nat.min policy.maxRetryDelay.nanos
        (policy.retryDelay.nanos * Nat.pow 2 (attempt.toNat - 2))) ∧
    (policy.delay attempt).nanos ≤ policy.maxRetryDelay.nanos ∧
    (∀ later, attempt ≤ later →
      (policy.delay attempt).nanos ≤ (policy.delay later).nanos) ∧
    policy.delayInWords attempt = .ofDuration (policy.delay attempt) := by
  refine ⟨delay_first, nanos_delay, fun further soon => ?_, nanos_delay_le,
    fun later => nanos_delay_mono, delayInWords_eq policy attempt⟩
  have most : attempt.toNat ≤ 33 := UInt32.le_iff_toNat_le.1 soon
  rw [nanos_delay further, factor_exact (by omega)]

/-- A wait of almost two seconds, scaled by the greatest power that fits and by the greatest
factor, and the longest wait of all, which scaling cannot lengthen. -/
theorem delay_exact_greatest :
    let longest : Duration := { nanos := Duration.greatest, bounded := Nat.le_refl _ }
    let policy : RetryPolicy := {
      RetryPolicy.forUpload with
      retryDelay := .ofNanos 1999999999
      maxRetryDelay := longest }
    (policy.delay 33).nanos = 1999999999 * 2147483648 ∧
      (policy.delay 100).nanos = 1999999999 * 4294967295 ∧
      ({ policy with retryDelay := longest }.delay 3).nanos = Duration.greatest := by
  intro longest policy
  refine ⟨?_, ?_, ?_⟩
  · exact ((delay_exact policy 33).2.2.1 (by decide) (by decide)).trans (by decide)
  · exact ((delay_exact policy 100).2.1 (by decide)).trans (by decide)
  · exact ((delay_exact { policy with retryDelay := longest } 3).2.1 (by decide)).trans (by decide)

end RetryPolicy

end TransferLedger
