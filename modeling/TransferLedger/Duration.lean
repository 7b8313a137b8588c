/-! Lengths of time, exact to the nanosecond.

The greatest duration is a nanosecond short of 2^64 seconds; scaling one beyond
that gives the greatest.
-/

namespace TransferLedger

/-- The nanoseconds of the greatest duration. -/
def Duration.greatest : Nat := 18446744073709551615999999999

structure Duration where
  nanos : Nat
  bounded : nanos ≤ Duration.greatest
  deriving DecidableEq

namespace Duration

def ofNanos (nanos : Nat) : Duration where
  nanos := Nat.min nanos greatest
  bounded := Nat.min_le_right _ _

def zero : Duration := ofNanos 0

def ofSeconds (seconds : Nat) : Duration :=
  ofNanos (seconds * 1000000000)

def ofMillis (millis : UInt64) : Duration :=
  ofNanos (millis.toNat * 1000000)

def seconds (duration : Duration) : Nat :=
  duration.nanos / 1000000000

def subsecond (duration : Duration) : Nat :=
  duration.nanos % 1000000000

def scale (duration : Duration) (factor : Nat) : Duration :=
  ofNanos (duration.nanos * factor)

def min (left right : Duration) : Duration :=
  if left.nanos ≤ right.nanos then left else right

theorem nanos_ofMillis (millis : UInt64) : (ofMillis millis).nanos = millis.toNat * 1000000 := by
  have below : millis.toNat < 18446744073709551616 := millis.toNat_lt
  apply Nat.min_eq_left
  simp only [greatest]
  omega

theorem nanos_min (left right : Duration) :
    (left.min right).nanos = Nat.min left.nanos right.nanos := by
  rw [min]
  split
  next le => exact (Nat.min_eq_left le).symm
  next gt => exact (Nat.min_eq_right (by omega)).symm

end Duration

end TransferLedger
