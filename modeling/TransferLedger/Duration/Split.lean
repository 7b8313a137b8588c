import TransferLedger.Retry

/-! Durations kept in two words.

One word holds the whole seconds and the other the nanoseconds below a second.  Scaling
multiplies both and carries what the nanoseconds come to over a second; where the seconds do
not fit in their word the greatest duration is taken instead.
-/

namespace TransferLedger

structure Duration.Split where
  seconds : UInt64
  subsecond : UInt32
  below : subsecond.toNat < 1000000000
  deriving DecidableEq

namespace Duration.Split

theorem subsecond_lt (duration : Duration) :
    (UInt32.ofNat duration.subsecond).toNat < 1000000000 := by
  have remainder : duration.subsecond < 1000000000 := Nat.mod_lt _ (by decide)
  rw [UInt32.toNat_ofNat_of_lt' (Nat.lt_trans remainder (by decide))]
  exact remainder

def ofDuration (duration : Duration) : Split where
  seconds := UInt64.ofNat duration.seconds
  subsecond := UInt32.ofNat duration.subsecond
  below := subsecond_lt duration

def greatest : Split where
  seconds := 18446744073709551615
  subsecond := 999999999
  below := by decide

/-- The number in a word, if it fits. -/
def word? (number : Nat) : Option UInt64 :=
  if number < UInt64.size then some (UInt64.ofNat number) else none

/-- The nanoseconds of the product need no check, since a word holds every product of two
numbers of 32 bits. -/
def scale? (split : Split) (factor : UInt32) : Option Split := do
  let product := split.subsecond.toUInt64 * factor.toUInt64
  let scaled ← word? (split.seconds.toNat * factor.toNat)
  let seconds ← word? (scaled.toNat + (product / 1000000000).toNat)
  some {
    seconds
    subsecond := (product % 1000000000).toUInt32
    below := by
      have remainder : (product % 1000000000).toNat < 1000000000 := by
        rw [UInt64.toNat_mod]
        exact Nat.mod_lt _ (by decide)
      rw [UInt64.toNat_toUInt32]
      omega }

def scale (split : Split) (factor : UInt32) : Split :=
  (split.scale? factor).getD greatest

def isAtMost (left right : Split) : Bool :=
  left.seconds < right.seconds ||
    (left.seconds == right.seconds && left.subsecond ≤ right.subsecond)

def min (left right : Split) : Split :=
  if left.isAtMost right then left else right

end Duration.Split

namespace RetryPolicy

/-- The wait before an attempt, worked out in words. -/
def delayInWords (policy : RetryPolicy) (attempt : UInt32) : Duration.Split :=
  if attempt ≤ 1 then .ofDuration .zero
  else
    ((Duration.Split.ofDuration policy.retryDelay).scale
      (UInt32.ofNat (factor (attempt - 2).toNat))).min (.ofDuration policy.maxRetryDelay)

end RetryPolicy

end TransferLedger
