import TransferLedger.JobId

/-! Where the parts of a plan stand.

A plan is one region of bytes: a header of 1600 bytes that ends with the job
status word, a record of 48 bytes for each transfer, and the path strings of all
transfers without separators.  Numbers are little-endian.  Everything but the
status words and the completion times is written once.
-/

namespace TransferLedger.Plan.Layout

/-- The version of this layout, written to and required from every header. -/
def schemaVersion : Nat := 0

/-! ## Header -/

def versionAt : Nat := 0
def jobIdAt : Nat := 4
def partNumberAt : Nat := 20
def isFinalAt : Nat := 24
def priorityAt : Nat := 25
def lifetimeAt : Nat := 28
def routeAt : Nat := 32
def transferCountAt : Nat := 36
def logLevelAt : Nat := 40
def keepsContentTypeAt : Nat := 44
def contentTypeAt : Nat := 46
def contentEncodingAt : Nat := 304
def blockBlobTierAt : Nat := 562
def pageBlobTierAt : Nat := 573
def metadataAt : Nat := 584
def blockSizeAt : Nat := 1588
def keepsModifiedTimeAt : Nat := 1592

/-- The job status word.  All header bytes before it are immutable. -/
def jobStatusAt : Nat := 1596

/-- The records start behind the header. -/
def headerSize : Nat := 1600

def contentTypeCapacity : Nat := 256
def contentEncodingCapacity : Nat := 256
def blobTierCapacity : Nat := 10
def metadataCapacity : Nat := 1000

/-! ## Transfer records -/

def sourceOffsetAt : Nat := 0
def sourceLengthAt : Nat := 8
def destinationLengthAt : Nat := 10
def modifiedTimeAt : Nat := 16
def sizeAt : Nat := 24

/-- The completion time.  All record bytes before it are immutable. -/
def completionTimeAt : Nat := 32

def transferStatusAt : Nat := 40

def recordSize : Nat := 48

/-- The longest path string that a record can describe. -/
def stringCapacity : Nat := 65535

def recordAt (index : Nat) : Nat :=
  headerSize + index * recordSize

/-- Where the strings of a part with `count` transfers begin. -/
def stringsAt (count : Nat) : Nat :=
  recordAt count

def regionLength (count stringsLength : Nat) : Nat :=
  stringsAt count + stringsLength

def fileName (job : JobId) (part : PartNumber) : String :=
  job.toText ++ "--" ++ part.toText ++ ".steV" ++ toString schemaVersion

end TransferLedger.Plan.Layout
