import TransferLedger.Plan.Descriptor
import TransferLedger.Plan.Header

/-! Headers and descriptors read piece by piece.

Only the bytes in front of a limit may be looked at; a piece that reaches behind the
limit, or behind the end of the bytes, stops the reading.
-/

namespace TransferLedger.Plan.Piecewise

open Bytes.LittleEndian (decode)

/-- Why a reading stops before its end. -/
inductive Stop where
  | fault (fault : Fault)
  /-- A piece reaches behind what may be looked at. -/
  | outside
  deriving DecidableEq

def piece (limit : Nat) (bytes : ByteArray) (offset length : Nat) : Except Stop ByteArray :=
  if offset + length ≤ min limit bytes.size then .ok (Bytes.slice bytes offset length)
  else .error .outside

def number (limit : Nat) (bytes : ByteArray) (offset width : Nat) : Except Stop Nat := do
  let stored ← piece limit bytes offset width
  .ok (decode stored)

def uint32 (limit : Nat) (bytes : ByteArray) (offset : Nat) : Except Stop UInt32 := do
  let raw ← number limit bytes offset 4
  .ok (UInt32.ofNat raw)

def flag (limit : Nat) (bytes : ByteArray) (offset : Nat) : Except Stop Bool := do
  let raw ← number limit bytes offset 1
  .ok (raw != 0)

def coded {α : Type} [Coded α] (limit : Nat) (bytes : ByteArray) (offset : Nat) :
    Except Stop α := do
  let raw ← number limit bytes offset 1
  (known raw).mapError Stop.fault

/-- The text itself is looked at only after its length has been checked. -/
def textField (limit : Nat) (bytes : ByteArray) (field : TextField) : Except Stop String := do
  let length ← number limit bytes field.offset field.lengthWidth
  (field.checkLength length).mapError Stop.fault
  let stored ← piece limit bytes (field.offset + field.lengthWidth) length
  (text field.name stored).mapError Stop.fault

/-- Reads the fields in the order in which they stand. -/
def fields (limit : Nat) (bytes : ByteArray) : Except Stop Header := do
  let jobId ← piece limit bytes Layout.jobIdAt 16
  let partNumber ← uint32 limit bytes Layout.partNumberAt
  let isFinal ← flag limit bytes Layout.isFinalAt
  let priority ← coded limit bytes Layout.priorityAt
  let lifetime ← uint32 limit bytes Layout.lifetimeAt
  let route ← coded limit bytes Layout.routeAt
  let transferCount ← uint32 limit bytes Layout.transferCountAt
  let logLevel ← coded limit bytes Layout.logLevelAt
  let keepsContentType ← flag limit bytes Layout.keepsContentTypeAt
  let contentType ← textField limit bytes .contentType
  let contentEncoding ← textField limit bytes .contentEncoding
  let blockBlobTier ← textField limit bytes .blockBlobTier
  let pageBlobTier ← textField limit bytes .pageBlobTier
  let metadata ← textField limit bytes .metadata
  let blockSize ← uint32 limit bytes Layout.blockSizeAt
  let keepsModifiedTime ← flag limit bytes Layout.keepsModifiedTimeAt
  .ok {
    jobId := JobId.ofByteArray jobId
    partNumber := { value := partNumber }
    isFinal
    priority
    lifetime
    route
    transferCount
    logLevel
    blob := {
      keepsContentType
      contentType
      contentEncoding
      blockBlobTier
      pageBlobTier
      metadata
      blockSize }
    localFile := { keepsModifiedTime } }

def header (limit : Nat) (bytes : ByteArray) : Except Stop Header := do
  if bytes.size < Layout.jobStatusAt then
    .error (.fault (.truncated bytes.size Layout.jobStatusAt))
  else
    let version ← number limit bytes Layout.versionAt 4
    if version ≠ Layout.schemaVersion then
      .error (.fault (.unsupportedVersion version Layout.schemaVersion))
    else fields limit bytes

/-- Every number is taken as it stands, so nothing but a missing piece stops the reading. -/
def descriptor (limit : Nat) (record : ByteArray) : Except Stop Descriptor := do
  let sourceOffset ← number limit record Layout.sourceOffsetAt 8
  let sourceLength ← number limit record Layout.sourceLengthAt 2
  let destinationLength ← number limit record Layout.destinationLengthAt 2
  let modifiedTime ← number limit record Layout.modifiedTimeAt 8
  let size ← number limit record Layout.sizeAt 8
  .ok {
    sourceOffset := UInt64.ofNat sourceOffset
    sourceLength := UInt16.ofNat sourceLength
    destinationLength := UInt16.ofNat destinationLength
    modifiedTime := (UInt64.ofNat modifiedTime).toInt64
    size := UInt64.ofNat size }

end TransferLedger.Plan.Piecewise
