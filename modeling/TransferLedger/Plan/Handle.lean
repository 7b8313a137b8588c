import TransferLedger.Plan.Region
import TransferLedger.Volume

/-! Plans that are held open.

A handle either owns the bytes of a plan in memory or is a window on a file; all
windows on one file see each other's updates, and the length of a window stays
what it was when the handle was made.  A released handle gives access to
nothing.
-/

namespace TransferLedger.Plan

open Volume (Path Place)

inductive Backing where
  | memory (bytes : ByteArray)
  /-- A window of `length` bytes. -/
  | file (place : Place) (length : Nat)

structure Handle where
  backing : Backing
  count : UInt32
  isMapped : Bool := true

namespace Handle

/-! ## Making and opening plans -/

/-- Makes a plan that is never stored. -/
def createInMemory (order : Order) : Except Fault Handle := do
  order.validate
  let count ← order.count
  let length ← order.regionLength
  let bytes ← order.writeTo (Bytes.zeros length)
  .ok { backing := .memory bytes, count }

/-- Makes the plan of an order in a file, in place of what the file held.  An
order that does not fit the layout fails before the file is touched. -/
def create (volume : Volume) (path : Path) (order : Order) : Except Fault Handle × Volume :=
  match order.validate, order.count, order.regionLength with
  | .ok (), .ok count, .ok length =>
      let blank := Bytes.zeros length
      match volume.filePlace path with
      | .error fault => (.error (.io fault), volume)
      | .ok place =>
          match order.writeTo blank with
          | .error fault => (.error fault, volume.put place (.file { bytes := blank }))
          | .ok bytes =>
              (.ok { backing := .file place length, count }, volume.put place (.file { bytes }))
  | .error fault, _, _ | _, .error fault, _ | _, _, .error fault => (.error fault, volume)

def «open» (volume : Volume) (path : Path) : Except Fault Handle := do
  match ← (volume.lookup path).mapError Fault.io with
  | (place, .file file) =>
      let region ← Region.ofBytes file.bytes
      .ok { backing := .file place file.bytes.size, count := region.count }
  | (_, .directory) => .error (.io .isDirectory)

def isPersisted (handle : Handle) : Bool :=
  match handle.backing with
  | .memory _ => false
  | .file _ _ => true

/-! ## The region behind a handle -/

def bytes (handle : Handle) (volume : Volume) : ByteArray :=
  match handle.backing with
  | .memory bytes => bytes
  | .file place length => (volume.fileAt place).window length

def region (handle : Handle) (volume : Volume) : Except Fault Region :=
  if handle.isMapped then .ok { count := handle.count, bytes := handle.bytes volume }
  else .error .unmapped

/-- Puts updated bytes where the handle has them from. -/
def store (handle : Handle) (volume : Volume) (bytes : ByteArray) : Handle × Volume :=
  match handle.backing with
  | .memory _ => ({ handle with backing := .memory bytes }, volume)
  | .file place _ => (handle, volume.put place (.file ((volume.fileAt place).store bytes)))

/-- Runs a reading operation on the region. -/
def view {α : Type} (handle : Handle) (volume : Volume) (operation : Region → Except Fault α) :
    Except Fault α := do
  operation (← handle.region volume)

/-- Runs an updating operation on the region and stores the result. -/
def update {α : Type} (handle : Handle) (volume : Volume)
    (operation : Region → Except Fault (α × Region)) : Except Fault α × Handle × Volume :=
  match handle.view volume operation with
  | .error fault => (.error fault, handle, volume)
  | .ok (value, region) => (.ok value, handle.store volume region.bytes)

/-! ## Operations on the plan -/

def regionLength (handle : Handle) (volume : Volume) : Except Fault Nat :=
  handle.view volume fun region => .ok region.bytes.size

def header (handle : Handle) (volume : Volume) : Except Fault Header :=
  handle.view volume Region.header

def jobStatus (handle : Handle) (volume : Volume) : Except Fault JobStatus :=
  handle.view volume Region.jobStatus

def setJobStatus (handle : Handle) (volume : Volume) (status : JobStatus) :
    Except Fault Unit × Handle × Volume :=
  handle.update volume fun region => do .ok ((), ← region.setJobStatus status)

def record (handle : Handle) (volume : Volume) (index : UInt32) : Except Fault Record :=
  handle.view volume fun region => region.record index

def records (handle : Handle) (volume : Volume) : List (Except Fault Record) :=
  (Region.indices handle.count).map (handle.record volume)

def strings (handle : Handle) (volume : Volume) (index : UInt32) :
    Except Fault (String × String) :=
  handle.view volume fun region => region.strings index

def transferStatus (handle : Handle) (volume : Volume) (record : Record) :
    Except Fault TransferStatus :=
  handle.view volume fun region => region.transferStatus record.index

def completionTime (handle : Handle) (volume : Volume) (record : Record) : Except Fault UInt64 :=
  handle.view volume fun region => .ok (region.completionTime record.index)

def updateStatus (handle : Handle) (volume : Volume) (record : Record) (new : TransferStatus) :
    Except Fault Transition × Handle × Volume :=
  handle.update volume fun region => .ok (region.updateStatus record.index new)

def stampCompletion (handle : Handle) (volume : Volume) (record : Record) (nanos : UInt64) :
    Except Fault Bool × Handle × Volume :=
  handle.update volume fun region => .ok (region.stampCompletion record.index nanos)

/-- The volume after the bytes of the handle were written back to its file. -/
def settle (handle : Handle) (volume : Volume) : Volume :=
  match handle.backing with
  | .memory _ => volume
  | .file place _ => volume.put place (.file (volume.fileAt place).flush)

/-- Writes the bytes of the handle back to the file that has them, if there is
one.  What the system says of the writing is given. -/
def writeBack (handle : Handle) (volume : Volume) (said : Except Volume.Fault Unit) :
    Except Fault Unit × Volume :=
  match handle.backing, said with
  | .file _ _, .error fault => (.error (.io fault), volume)
  | _, _ => (.ok (), handle.settle volume)

def flush (handle : Handle) (volume : Volume) (said : Except Volume.Fault Unit := .ok ()) :
    Except Fault Unit × Volume :=
  if handle.isMapped then handle.writeBack volume said else (.error .unmapped, volume)

/-- Flushes and lets go of the region, also when the flush fails.  Unmapping a
handle again has no effect. -/
def unmap (handle : Handle) (volume : Volume) (said : Except Volume.Fault Unit := .ok ()) :
    Except Fault Unit × Handle × Volume :=
  if handle.isMapped then
    let (result, settled) := handle.writeBack volume said
    (result, { handle with isMapped := false }, settled)
  else (.ok (), handle, volume)

/-- Unmaps a handle whose bytes can be written back. -/
def release (handle : Handle) (volume : Volume) : Handle × Volume :=
  (handle.unmap volume).2

end Handle

end TransferLedger.Plan
