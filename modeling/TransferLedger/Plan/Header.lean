import TransferLedger.Bytes.LittleEndian
import TransferLedger.Plan.Fault
import TransferLedger.Plan.Layout
import TransferLedger.Preference
import TransferLedger.Route

/-! The immutable head of a plan.

Every header whose texts fit their fields has one image, which reads back as
that header.  Reading accepts more than the images: flag bytes other than one,
and anything in the bytes that no field uses.
-/

namespace TransferLedger.Plan

open Bytes (slice)

/-- Settings of transfers whose destination is a blob. -/
structure BlobSettings where
  /-- Keep the content type as given instead of guessing one. -/
  keepsContentType : Bool := false
  contentType : String := ""
  contentEncoding : String := ""
  blockBlobTier : String := ""
  pageBlobTier : String := ""
  metadata : String := ""
  /-- The greatest block size, which fixes the number of chunks of a transfer. -/
  blockSize : UInt32 := 0
  deriving DecidableEq

/-- Settings of transfers whose destination is the local file system. -/
structure LocalSettings where
  keepsModifiedTime : Bool := false
  deriving DecidableEq

structure Header where
  jobId : JobId := default
  partNumber : PartNumber := default
  isFinal : Bool := false
  priority : Priority := default
  /-- For how many seconds the plan is kept after the part completes. -/
  lifetime : UInt32 := 0
  route : Route := default
  transferCount : UInt32 := 0
  logLevel : LogLevel := default
  blob : BlobSettings := {}
  localFile : LocalSettings := {}
  deriving DecidableEq

/-- A text of limited size in the header: its length, then room for its bytes. -/
structure TextField where
  name : String
  offset : Nat
  lengthWidth : Nat
  capacity : Nat

namespace TextField

def contentType : TextField where
  name := "content type"
  offset := Layout.contentTypeAt
  lengthWidth := 2
  capacity := Layout.contentTypeCapacity

def contentEncoding : TextField where
  name := "content encoding"
  offset := Layout.contentEncodingAt
  lengthWidth := 2
  capacity := Layout.contentEncodingCapacity

def blockBlobTier : TextField where
  name := "block blob tier"
  offset := Layout.blockBlobTierAt
  lengthWidth := 1
  capacity := Layout.blobTierCapacity

def pageBlobTier : TextField where
  name := "page blob tier"
  offset := Layout.pageBlobTierAt
  lengthWidth := 1
  capacity := Layout.blobTierCapacity

def metadata : TextField where
  name := "metadata"
  offset := Layout.metadataAt
  lengthWidth := 2
  capacity := Layout.metadataCapacity

def checkLength (field : TextField) (length : Nat) : Except Fault Unit :=
  if field.capacity < length then .error (.fieldTooLong field.name length field.capacity)
  else .ok ()

def check (field : TextField) (text : String) : Except Fault Unit :=
  field.checkLength text.utf8ByteSize

def image (field : TextField) (text : String) : ByteArray :=
  Bytes.LittleEndian.encode field.lengthWidth text.utf8ByteSize ++
    Bytes.padTo field.capacity text.toUTF8

def read (field : TextField) (bytes : ByteArray) : Except Fault String := do
  let length := Bytes.LittleEndian.decode (slice bytes field.offset field.lengthWidth)
  field.checkLength length
  text field.name (slice bytes (field.offset + field.lengthWidth) length)

end TextField

namespace BlobSettings

def validate (settings : BlobSettings) : Except Fault Unit := do
  TextField.contentType.check settings.contentType
  TextField.contentEncoding.check settings.contentEncoding
  TextField.blockBlobTier.check settings.blockBlobTier
  TextField.pageBlobTier.check settings.pageBlobTier
  TextField.metadata.check settings.metadata

end BlobSettings

namespace Header

open Bytes.LittleEndian (encode decode)

def flag (value : Bool) : ByteArray :=
  encode 1 value.toNat

def codeByte {α : Type} [Coded α] (value : α) : ByteArray :=
  encode 1 (Coded.code value).toNat

def parts (header : Header) : List (Nat × ByteArray) :=
  [(Layout.versionAt, encode 4 Layout.schemaVersion),
    (Layout.jobIdAt, header.jobId.toBytes.toByteArray),
    (Layout.partNumberAt, encode 4 header.partNumber.value.toNat),
    (Layout.isFinalAt, flag header.isFinal),
    (Layout.priorityAt, codeByte header.priority),
    (Layout.lifetimeAt, encode 4 header.lifetime.toNat),
    (Layout.routeAt, codeByte header.route),
    (Layout.transferCountAt, encode 4 header.transferCount.toNat),
    (Layout.logLevelAt, codeByte header.logLevel),
    (Layout.keepsContentTypeAt, flag header.blob.keepsContentType),
    (Layout.contentTypeAt, TextField.contentType.image header.blob.contentType),
    (Layout.contentEncodingAt, TextField.contentEncoding.image header.blob.contentEncoding),
    (Layout.blockBlobTierAt, TextField.blockBlobTier.image header.blob.blockBlobTier),
    (Layout.pageBlobTierAt, TextField.pageBlobTier.image header.blob.pageBlobTier),
    (Layout.metadataAt, TextField.metadata.image header.blob.metadata),
    (Layout.blockSizeAt, encode 4 header.blob.blockSize.toNat),
    (Layout.keepsModifiedTimeAt, flag header.localFile.keepsModifiedTime)]

def image (header : Header) : ByteArray :=
  Bytes.lay (Bytes.zeros Layout.jobStatusAt) header.parts

/-- Writes a header to the front of a buffer.  The job status word and all that
follows it stay as they are. -/
def writeTo (header : Header) (buffer : ByteArray) : Except Fault ByteArray := do
  if buffer.size < Layout.headerSize then
    .error (.truncated buffer.size Layout.headerSize)
  else
    header.blob.validate
    .ok (Bytes.splice buffer 0 header.image)

def word (bytes : ByteArray) (offset width : Nat) : Nat :=
  decode (slice bytes offset width)

/-- Reads a header from bytes that reach at least to the job status word. -/
def read (bytes : ByteArray) : Except Fault Header := do
  if bytes.size < Layout.jobStatusAt then
    .error (.truncated bytes.size Layout.jobStatusAt)
  else
    let version := word bytes Layout.versionAt 4
    if version ≠ Layout.schemaVersion then
      .error (.unsupportedVersion version Layout.schemaVersion)
    else
      let priority ← known (word bytes Layout.priorityAt 1)
      let route ← known (word bytes Layout.routeAt 1)
      let logLevel ← known (word bytes Layout.logLevelAt 1)
      let contentType ← TextField.contentType.read bytes
      let contentEncoding ← TextField.contentEncoding.read bytes
      let blockBlobTier ← TextField.blockBlobTier.read bytes
      let pageBlobTier ← TextField.pageBlobTier.read bytes
      let metadata ← TextField.metadata.read bytes
      .ok {
        jobId := JobId.ofByteArray (slice bytes Layout.jobIdAt 16)
        partNumber := { value := UInt32.ofNat (word bytes Layout.partNumberAt 4) }
        isFinal := word bytes Layout.isFinalAt 1 != 0
        priority
        lifetime := UInt32.ofNat (word bytes Layout.lifetimeAt 4)
        route
        transferCount := UInt32.ofNat (word bytes Layout.transferCountAt 4)
        logLevel
        blob := {
          keepsContentType := word bytes Layout.keepsContentTypeAt 1 != 0
          contentType
          contentEncoding
          blockBlobTier
          pageBlobTier
          metadata
          blockSize := UInt32.ofNat (word bytes Layout.blockSizeAt 4) }
        localFile := { keepsModifiedTime := word bytes Layout.keepsModifiedTimeAt 1 != 0 } }

def toJson (header : Header) : Json :=
  Json.record [
    ("jobId", header.jobId.toJson),
    ("partNumber", header.partNumber.toJson),
    ("isFinalPart", .bool header.isFinal),
    ("priority", Coded.toJson header.priority),
    ("ttlAfterCompletion", .ofNat header.lifetime.toNat),
    ("fromTo", Coded.toJson header.route),
    ("numTransfers", .ofNat header.transferCount.toNat),
    ("logLevel", Coded.toJson header.logLevel),
    ("dstBlob", Json.record [
      ("noGuessMimeType", .bool header.blob.keepsContentType),
      ("contentType", .ofText header.blob.contentType),
      ("contentEncoding", .ofText header.blob.contentEncoding),
      ("blockBlobTier", .ofText header.blob.blockBlobTier),
      ("pageBlobTier", .ofText header.blob.pageBlobTier),
      ("metadata", .ofText header.blob.metadata),
      ("blockSize", .ofNat header.blob.blockSize.toNat)]),
    ("dstLocal", Json.record [
      ("preserveLastModifiedTime", .bool header.localFile.keepsModifiedTime)])]

end Header

end TransferLedger.Plan
