import TransferLedger.Duration

/-! When a failed request is tried again.

The wait before an attempt doubles from attempt to attempt up to a cap.  The
doubling stops at the greatest 32-bit factor, and the first attempt never waits.
-/

namespace TransferLedger

structure RetryPolicy where
  /-- Attempts per request, the first one included. -/
  maxTries : UInt32
  tryTimeout : Duration
  /-- The wait before the first retry. -/
  retryDelay : Duration
  maxRetryDelay : Duration
  deriving DecidableEq

namespace RetryPolicy

def forUpload : RetryPolicy where
  maxTries := 5
  tryTimeout := .ofSeconds 600
  retryDelay := .ofSeconds 3
  maxRetryDelay := .ofSeconds 12

def forDownload : RetryPolicy where
  maxTries := 5
  tryTimeout := .ofSeconds 600
  retryDelay := .ofSeconds 1
  maxRetryDelay := .ofSeconds 3

/-- What the wait before the first retry is multiplied by after `doublings`
further retries. -/
def factor (doublings : Nat) : Nat :=
  if doublings < 32 then Nat.pow 2 doublings else 4294967295

/-- The wait before an attempt.  Attempts are counted from one. -/
def delay (policy : RetryPolicy) (attempt : UInt32) : Duration :=
  if attempt ≤ 1 then .zero
  else (policy.retryDelay.scale (factor (attempt.toNat - 2))).min policy.maxRetryDelay

/-- Whether another attempt may follow this one. -/
def allowsRetry (policy : RetryPolicy) (attempt : UInt32) : Bool :=
  attempt < policy.maxTries

theorem factor_eq_min (doublings : Nat) :
    factor doublings = Nat.min (Nat.pow 2 doublings) 4294967295 := by
  rw [factor]
  split
  next below =>
    have power : Nat.pow 2 doublings ≤ Nat.pow 2 31 := Nat.pow_le_pow_right (by omega) (by omega)
    exact (Nat.min_eq_left (Nat.le_trans power (by decide))).symm
  next beyond =>
    have power : Nat.pow 2 32 ≤ Nat.pow 2 doublings :=
      Nat.pow_le_pow_right (by omega) (by omega)
    exact (Nat.min_eq_right (Nat.le_trans (by decide) power)).symm

end RetryPolicy

end TransferLedger
