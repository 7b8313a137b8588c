import TransferLedger.Plan.Handle

/-! Plans written piece by piece into a buffer that is there already.

A writing takes the buffer to what it is afterwards, and what it has written before
it stops stays written.  The buffer may hold anything before; pieces that no step
writes keep what they held.
-/

namespace TransferLedger.Plan

open Bytes (slice splice)
open Bytes.LittleEndian (encode)

namespace InPlace

/-- Why a writing stops before its end. -/
inductive Stop where
  | fault (fault : Fault)
  /-- A piece does not fit in what it is written to. -/
  | outside
  /-- The strings do not end where the buffer ends. -/
  | uneven
  deriving DecidableEq

def Writing (α : Type) : Type :=
  ByteArray → Except Stop α × ByteArray

instance : Monad Writing where
  pure value := fun buffer => (.ok value, buffer)
  bind writing next := fun buffer =>
    match writing buffer with
    | (.ok value, after) => next value after
    | (.error stop, after) => (.error stop, after)

def stop {α : Type} (reason : Stop) : Writing α :=
  fun buffer => (.error reason, buffer)

def check {α : Type} (result : Except Fault α) : Writing α :=
  fun buffer => (result.mapError Stop.fault, buffer)

def size : Writing Nat :=
  fun buffer => (.ok buffer.size, buffer)

def put (offset : Nat) (piece : ByteArray) : Writing Unit :=
  fun buffer =>
    if offset + piece.size ≤ buffer.size then (.ok (), splice buffer offset piece)
    else (.error .outside, buffer)

def clear (offset length : Nat) : Writing Unit :=
  put offset (Bytes.zeros length)

/-- Writes to a part of the buffer only. -/
def onPart (offset length : Nat) (writing : Writing Unit) : Writing Unit :=
  fun buffer =>
    if offset + length ≤ buffer.size then
      match writing (slice buffer offset length) with
      | (result, part) => (result, splice buffer offset part)
    else (.error .outside, buffer)

/-! ## Headers -/

def textField (field : TextField) (text : String) : Writing Unit := do
  check (field.check text)
  put field.offset (encode field.lengthWidth text.utf8ByteSize)
  onPart (field.offset + field.lengthWidth) field.capacity do
    put 0 text.toUTF8
    clear text.utf8ByteSize (field.capacity - text.utf8ByteSize)

/-- Writes everything in front of the job status word. -/
def headerParts (header : Header) : Writing Unit := do
  clear 0 Layout.jobStatusAt
  put Layout.versionAt (encode 4 Layout.schemaVersion)
  put Layout.jobIdAt header.jobId.toBytes.toByteArray
  put Layout.partNumberAt (encode 4 header.partNumber.value.toNat)
  put Layout.isFinalAt (Header.flag header.isFinal)
  put Layout.priorityAt (Header.codeByte header.priority)
  put Layout.lifetimeAt (encode 4 header.lifetime.toNat)
  put Layout.routeAt (Header.codeByte header.route)
  put Layout.transferCountAt (encode 4 header.transferCount.toNat)
  put Layout.logLevelAt (Header.codeByte header.logLevel)
  put Layout.keepsContentTypeAt (Header.flag header.blob.keepsContentType)
  textField .contentType header.blob.contentType
  textField .contentEncoding header.blob.contentEncoding
  textField .blockBlobTier header.blob.blockBlobTier
  textField .pageBlobTier header.blob.pageBlobTier
  textField .metadata header.blob.metadata
  put Layout.blockSizeAt (encode 4 header.blob.blockSize.toNat)
  put Layout.keepsModifiedTimeAt (Header.flag header.localFile.keepsModifiedTime)

def header (header : Header) : Writing Unit := do
  let length ← size
  if length < Layout.headerSize then
    stop (.fault (.truncated length Layout.headerSize))
  else
    check header.blob.validate
    headerParts header

/-! ## Records and strings -/

def descriptor (descriptor : Descriptor) : Writing Unit := do
  clear 0 Layout.completionTimeAt
  put Layout.sourceOffsetAt (encode 8 descriptor.sourceOffset.toNat)
  put Layout.sourceLengthAt (encode 2 descriptor.sourceLength.toNat)
  put Layout.destinationLengthAt (encode 2 descriptor.destinationLength.toNat)
  put Layout.modifiedTimeAt (encode 8 descriptor.modifiedTime.toUInt64.toNat)
  put Layout.sizeAt (encode 8 descriptor.size.toNat)

def record (item : Order.Item) (sourceOffset : Nat) : Writing Unit := do
  clear 0 Layout.recordSize
  descriptor (item.descriptor sourceOffset)
  put Layout.completionTimeAt (encode 8 0)
  put Layout.transferStatusAt (transferWord .notStarted)

/-- Writes the items from the given index on, their strings from the cursor on.  The
result is the cursor behind the last string. -/
def items (index cursor : Nat) : List Order.Item → Writing Nat
  | [] => pure cursor
  | item :: rest => do
      put cursor item.source.toUTF8
      put (cursor + item.source.toUTF8.size) item.destination.toUTF8
      onPart (Layout.recordAt (UInt32.ofNat index).toNat) Layout.recordSize (record item cursor)
      items (index + 1) (cursor + (item.source.toUTF8.size + item.destination.toUTF8.size)) rest

/-! ## Orders -/

def order (order : Order) : Writing Unit := do
  check order.validate
  let count ← check order.count
  let needed ← check order.regionLength
  let length ← size
  if length ≠ needed then stop (.fault (.truncated length needed))
  else
    header { order.header with transferCount := count }
    put Layout.jobStatusAt (jobWord .inProgress)
    let cursor ← items 0 (Layout.stringsAt count.toNat) order.items
    if cursor ≠ length then stop .uneven else pure ()

/-- Makes the plan of an order in a file.  The file is emptied, brought to its length
and then written through a window, so what a writing leaves when it stops is left in
the file. -/
def create (volume : Volume) (path : Volume.Path) (order : Order) :
    Except Stop Handle × Volume :=
  match order.validate >>= fun _ => order.regionLength with
  | .error fault => (.error (.fault fault), volume)
  | .ok length =>
      match volume.filePlace path with
      | .error fault => (.error (.fault (.io fault)), volume)
      | .ok place =>
          let emptied := volume.put place (.file { bytes := .empty })
          let sized := emptied.put place
            (.file { bytes := Bytes.resize (emptied.fileAt place).bytes length })
          let window : Handle := { backing := .file place length, count := 0 }
          let (result, bytes) := InPlace.order order (window.bytes sized)
          let written := (window.store sized bytes).2
          match result >>= fun _ => order.count.mapError Stop.fault with
          | .error reason => (.error reason, written)
          | .ok count => (.ok { window with count }, window.settle written)

end InPlace

end TransferLedger.Plan
