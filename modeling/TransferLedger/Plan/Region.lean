import TransferLedger.Plan.Order

/-! Reading and updating the bytes of a plan.

The bytes may be damaged: reads check every range, and a status word may hold a
code that belongs to no status.  Updates touch only the word they name.
-/

namespace TransferLedger.Plan

open Bytes (slice splice)
open Bytes.LittleEndian (encode decode)

/-- The bytes of a plan, with the number of transfers that was found in its
header when it was taken up. -/
structure Region where
  count : UInt32
  bytes : ByteArray

/-- A transfer record as it is handed out: a copy of its descriptor, and its
index, under which its status and completion time are looked up. -/
structure Record where
  index : UInt32
  descriptor : Descriptor
  deriving DecidableEq, Repr

/-- What an update did to a status word. -/
structure Transition where
  /-- The status before, or `none` if the word held no status. -/
  previous : Option TransferStatus
  /-- The status in effect afterwards. -/
  current : TransferStatus
  deriving DecidableEq, Repr

/-- Whether the update took a transfer that had not finished to a terminal
status. -/
def Transition.entersTerminal (transition : Transition) : Bool :=
  transition.current.isTerminal &&
    !(transition.previous.map TransferStatus.isTerminal).getD false

namespace Record

def range (record : Record) : Nat × Nat :=
  (Layout.recordAt record.index.toNat, Layout.recordAt record.index.toNat + Layout.recordSize)

end Record

namespace Region

/-- The bytes of a range that has to lie inside the region. -/
def read (region : Region) (offset length : Nat) : Except Fault ByteArray :=
  if offset + length ≤ region.bytes.size then .ok (slice region.bytes offset length)
  else .error (.outOfBounds offset length region.bytes.size)

def header (region : Region) : Except Fault Header := do
  Header.read (← region.read 0 Layout.jobStatusAt)

/-- Takes up the bytes of a stored plan.  They must hold a readable header and
all the records that the header counts. -/
def ofBytes (bytes : ByteArray) : Except Fault Region := do
  if bytes.size < Layout.headerSize then
    .error (.truncated bytes.size Layout.headerSize)
  else
    let header ← Header.read bytes
    let needed := Layout.stringsAt header.transferCount.toNat
    if bytes.size < needed then .error (.truncated bytes.size needed)
    else .ok { count := header.transferCount, bytes }

def jobStatus (region : Region) : Except Fault JobStatus := do
  known (decode (← region.read Layout.jobStatusAt 4))

def setJobStatus (region : Region) (status : JobStatus) : Except Fault Region := do
  let _ ← region.read Layout.jobStatusAt 4
  .ok { region with
    bytes := splice region.bytes Layout.jobStatusAt (jobWord status) }

def completionTimeAt (index : UInt32) : Nat :=
  Layout.recordAt index.toNat + Layout.completionTimeAt

def transferStatusAt (index : UInt32) : Nat :=
  Layout.recordAt index.toNat + Layout.transferStatusAt

def record (region : Region) (index : UInt32) : Except Fault Record := do
  if region.count ≤ index then .error (.indexOutOfRange index region.count)
  else
    let immutable ← region.read (Layout.recordAt index.toNat) Layout.completionTimeAt
    let _ ← region.read (completionTimeAt index) 8
    let _ ← region.read (transferStatusAt index) 4
    .ok { index, descriptor := Descriptor.read immutable }

/-- The completion time of a transfer in nanoseconds since the Unix epoch, or
zero while it runs. -/
def completionTime (region : Region) (index : UInt32) : UInt64 :=
  UInt64.ofNat (decode (slice region.bytes (completionTimeAt index) 8))

def statusCode (region : Region) (index : UInt32) : Int :=
  (UInt32.ofNat (decode (slice region.bytes (transferStatusAt index) 4))).toInt32.toInt

def transferStatus (region : Region) (index : UInt32) : Except Fault TransferStatus :=
  known (region.statusCode index)

def putStatus (region : Region) (index : UInt32) (status : TransferStatus) : Region :=
  { region with
    bytes := splice region.bytes (transferStatusAt index) (transferWord status) }

/-- Reports a new status of a transfer.  A word that holds no status is
overwritten. -/
def updateStatus (region : Region) (index : UInt32) (new : TransferStatus) :
    Transition × Region :=
  let previous := (region.transferStatus index).toOption
  let current := (previous.map fun status => status.merge new).getD new
  ({ previous, current }, region.putStatus index current)

/-- Records the completion time of a transfer unless one is recorded already,
and says whether this call did. -/
def stampCompletion (region : Region) (index : UInt32) (nanos : UInt64) : Bool × Region :=
  if region.completionTime index = 0 then
    (true, { region with
      bytes := splice region.bytes (completionTimeAt index) (encode 8 nanos.toNat) })
  else (false, region)

/-- The source and destination strings of a transfer.  They must lie behind the
records. -/
def strings (region : Region) (index : UInt32) : Except Fault (String × String) := do
  let record ← region.record index
  let start := record.descriptor.sourceOffset.toNat
  if start < Layout.stringsAt region.count.toNat then
    .error (.outOfBounds start 0 region.bytes.size)
  else
    let middle := start + record.descriptor.sourceLength.toNat
    let source ← region.read start record.descriptor.sourceLength.toNat
    let destination ← region.read middle record.descriptor.destinationLength.toNat
    let sourceText ← text ("source of transfer " ++ toString index.toNat) source
    let destinationText ← text ("destination of transfer " ++ toString index.toNat) destination
    .ok (sourceText, destinationText)

def indices (count : UInt32) : List UInt32 :=
  (List.range count.toNat).map UInt32.ofNat

end Region

end TransferLedger.Plan
