import TransferLedger.Coded

/-! The status of a whole job part. -/

namespace TransferLedger

inductive JobStatus where
  | inProgress
  | paused
  | cancelling
  | cancelled
  | completed
  | completedWithErrors
  | failed
  deriving DecidableEq, Repr, Inhabited

namespace JobStatus

def code : JobStatus → Int
  | .inProgress => 0
  | .paused => 1
  | .cancelling => 2
  | .cancelled => 3
  | .completed => 4
  | .completedWithErrors => 5
  | .failed => 6

def label : JobStatus → String
  | .inProgress => "in_progress"
  | .paused => "paused"
  | .cancelling => "cancelling"
  | .cancelled => "cancelled"
  | .completed => "completed"
  | .completedWithErrors => "completed_with_errors"
  | .failed => "failed"

instance : Coded JobStatus where
  kind := "job status"
  values := [.inProgress, .paused, .cancelling, .cancelled, .completed, .completedWithErrors,
    .failed]
  code := code
  label := label
  mem_values value := by cases value <;> decide
  code_injective left right := by cases left <;> cases right <;> decide
  label_injective left right := by cases left <;> cases right <;> decide

def isTerminal : JobStatus → Bool
  | .cancelled | .completed | .completedWithErrors | .failed => true
  | .inProgress | .paused | .cancelling => false

end JobStatus

end TransferLedger
