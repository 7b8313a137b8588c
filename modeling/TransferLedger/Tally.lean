import TransferLedger.Summary

/-! The tally of a job.

A summary is installed once, new or as it was saved when the job was paused.
From then on the tally adds the parts that are created and the transfers that
end.  Counters wrap around.
-/

namespace TransferLedger

/-- What is counted when a part is created. -/
structure PartCounts where
  totalTransfers : UInt32 := 0
  isFinal : Bool := false
  bytesEnumerated : UInt64 := 0
  fileTransfers : UInt32 := 0
  folderTransfers : UInt32 := 0
  deriving DecidableEq, Repr

namespace PartCounts

def describe (counts : PartCounts) : String :=
  "JobPartCreated \x7b total_transfers: " ++ toString counts.totalTransfers.toNat ++
    ", is_final_part: " ++ toString counts.isFinal ++
    ", total_bytes_enumerated: " ++ toString counts.bytesEnumerated.toNat ++
    ", file_transfers: " ++ toString counts.fileTransfers.toNat ++
    ", folder_transfers: " ++ toString counts.folderTransfers.toNat ++ " \x7d"

end PartCounts

namespace Summary

def addPart (summary : Summary) (counts : PartCounts) : Summary :=
  { summary with
    isOrdered := summary.isOrdered || counts.isFinal
    totalTransfers := summary.totalTransfers + counts.totalTransfers
    fileTransfers := summary.fileTransfers + counts.fileTransfers
    folderTransfers := summary.folderTransfers + counts.folderTransfers
    bytesEnumerated := summary.bytesEnumerated + counts.bytesEnumerated
    bytesExpected := summary.bytesExpected + counts.bytesEnumerated }

/-- Counts the end of a transfer in the bucket of its status, if it has one. -/
def addDetail (summary : Summary) (detail : Detail) : Summary :=
  match detail.status.outcome? with
  | some .success =>
      { summary with
        completed := summary.completed + 1
        bytesTransferred := summary.bytesTransferred + detail.size }
  | some .failure =>
      { summary with
        failed := summary.failed + 1
        failures := summary.failures ++ [detail] }
  | some .skipped =>
      { summary with
        skipped := summary.skipped + 1
        skips := summary.skips ++ [detail] }
  | none => summary

end Summary

structure Tally where
  /-- The summary, once it is installed. -/
  summary? : Option Summary := none
  deriving DecidableEq

instance : Inhabited Tally := ⟨{}⟩

namespace Tally

inductive Fault where
  | alreadyInitialized
  | notInitialized
  deriving DecidableEq, Repr

def Fault.message : Fault → String
  | .alreadyInitialized => "job status manager already initialized"
  | .notInitialized => "job status manager not initialized"

def ofSummary (summary : Summary) : Tally where
  summary? := some summary

def isInitialized (tally : Tally) : Bool :=
  tally.summary?.isSome

/-- Installs a summary.  One that is installed already stays. -/
def install (tally : Tally) (summary : Summary) : Except Fault Tally :=
  match tally.summary? with
  | none => .ok (ofSummary summary)
  | some _ => .error .alreadyInitialized

def change (tally : Tally) (edit : Summary → Summary) : Except Fault Tally :=
  match tally.summary? with
  | none => .error .notInitialized
  | some summary => .ok (ofSummary (edit summary))

def recordPart (tally : Tally) (counts : PartCounts) : Except Fault Tally :=
  tally.change fun summary => summary.addPart counts

def recordDetail (tally : Tally) (detail : Summary.Detail) : Except Fault Tally :=
  tally.change fun summary => summary.addDetail detail

/-- The totals as they stand, with the current time and no error message. -/
def snapshot (tally : Tally) (now : Timestamp) : Except Fault Summary :=
  match tally.summary? with
  | none => .error .notInitialized
  | some summary => .ok { summary with timestamp := now, errorMessage := "" }

end Tally

end TransferLedger
