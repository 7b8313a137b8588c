import TransferLedger.Coded

/-! The status of one transfer.

A transfer runs until it reaches a terminal status.  Negative codes are the
terminal statuses other than success.
-/

namespace TransferLedger

inductive TransferStatus where
  | notStarted
  | started
  | success
  | failed
  | blobTierFailure
  | skippedEntityAlreadyExists
  | skippedBlobHasSnapshots
  | tierAvailabilityCheckFailure
  | cancelled
  deriving DecidableEq, Repr, Inhabited

/-- The bucket in which a finished transfer is counted. -/
inductive Outcome where
  | success
  | failure
  | skipped
  deriving DecidableEq, Repr

def Outcome.name : Outcome → String
  | .success => "Success"
  | .failure => "Failure"
  | .skipped => "Skipped"

namespace TransferStatus

def code : TransferStatus → Int
  | .notStarted => 0
  | .started => 1
  | .success => 2
  | .failed => -1
  | .blobTierFailure => -2
  | .skippedEntityAlreadyExists => -3
  | .skippedBlobHasSnapshots => -4
  | .tierAvailabilityCheckFailure => -5
  | .cancelled => -6

def label : TransferStatus → String
  | .notStarted => "not_started"
  | .started => "started"
  | .success => "success"
  | .failed => "failed"
  | .blobTierFailure => "blob_tier_failure"
  | .skippedEntityAlreadyExists => "skipped_entity_already_exists"
  | .skippedBlobHasSnapshots => "skipped_blob_has_snapshots"
  | .tierAvailabilityCheckFailure => "tier_availability_check_failure"
  | .cancelled => "cancelled"

instance : Coded TransferStatus where
  kind := "transfer status"
  values := [.notStarted, .started, .success, .failed, .blobTierFailure,
    .skippedEntityAlreadyExists, .skippedBlobHasSnapshots, .tierAvailabilityCheckFailure,
    .cancelled]
  code := code
  label := label
  mem_values value := by cases value <;> decide
  code_injective left right := by cases left <;> cases right <;> decide
  label_injective left right := by cases left <;> cases right <;> decide

/-- The bucket of a status.  A cancelled transfer has finished, but is counted
neither as done nor as failed. -/
def outcome? : TransferStatus → Option Outcome
  | .success => some .success
  | .failed | .blobTierFailure | .tierAvailabilityCheckFailure => some .failure
  | .skippedEntityAlreadyExists | .skippedBlobHasSnapshots => some .skipped
  | .notStarted | .started | .cancelled => none

def isFailure (status : TransferStatus) : Bool :=
  status.outcome? == some .failure

def isSkipped (status : TransferStatus) : Bool :=
  status.outcome? == some .skipped

def isTerminal : TransferStatus → Bool
  | .notStarted | .started => false
  | _ => true

/-- The status in effect after a new one is reported.  A failure is final, so a
late success from another chunk of the same transfer does not hide it. -/
def merge (current new : TransferStatus) : TransferStatus :=
  if current = .failed then .failed else new

theorem merge_failed (new : TransferStatus) : merge .failed new = .failed :=
  rfl

theorem merge_of_ne_failed {current : TransferStatus} (running : current ≠ .failed)
    (new : TransferStatus) : merge current new = new :=
  if_neg running

end TransferStatus

end TransferLedger
