import TransferLedger.JobId
import TransferLedger.JobStatus
import TransferLedger.Timestamp
import TransferLedger.TransferStatus

/-! The running totals of a job.

The counters have fixed widths and wrap around; the number of finished transfers
saturates instead.
-/

namespace TransferLedger

structure Summary.Detail where
  source : String
  destination : String
  status : TransferStatus
  size : UInt64
  code : Int32
  deriving DecidableEq

structure Summary where
  timestamp : Timestamp := default
  jobId : JobId := default
  errorMessage : String := ""
  jobStatus : JobStatus := default
  /-- Set once the final part of the job has been created. -/
  isOrdered : Bool := false
  totalTransfers : UInt32 := 0
  fileTransfers : UInt32 := 0
  folderTransfers : UInt32 := 0
  completed : UInt32 := 0
  failed : UInt32 := 0
  skipped : UInt32 := 0
  bytesTransferred : UInt64 := 0
  bytesEnumerated : UInt64 := 0
  bytesExpected : UInt64 := 0
  failures : List Summary.Detail := []
  skips : List Summary.Detail := []
  deriving DecidableEq

instance : Inhabited Summary := ⟨{}⟩

namespace Summary

def fresh (now : Timestamp) (jobId : JobId) : Summary :=
  { timestamp := now, jobId }

/-- An answer that carries only an error. -/
def ofError (now : Timestamp) (jobId : JobId) (message : String) : Summary :=
  { fresh now jobId with errorMessage := message }

def saturatingAdd (left right : UInt32) : UInt32 :=
  UInt32.ofNat (min (left.toNat + right.toNat) (UInt32.size - 1))

/-- The transfers that were counted in some bucket. -/
def done (summary : Summary) : UInt32 :=
  saturatingAdd (saturatingAdd summary.completed summary.failed) summary.skipped

/-- Whether every transfer of a fully ordered job has an outcome. -/
def isComplete (summary : Summary) : Bool :=
  summary.isOrdered && summary.totalTransfers ≤ summary.done

end Summary

end TransferLedger
