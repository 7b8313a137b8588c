import TransferLedger.Bytes
import TransferLedger.Bytes.LittleEndian
import TransferLedger.Plan.Layout

/-! The immutable part of a transfer record.

A descriptor says where the path strings of a transfer stand and what was known
of its source when the plan was made.  Its image reads back as the descriptor,
and any 32 bytes read as some descriptor.
-/

namespace TransferLedger.Plan

open Bytes (slice)
open Bytes.LittleEndian (encode decode)

structure Descriptor where
  /-- Where the source string starts, counted from the start of the region. -/
  sourceOffset : UInt64 := 0
  sourceLength : UInt16 := 0
  /-- The destination string follows the source string. -/
  destinationLength : UInt16 := 0
  /-- Nanoseconds since the Unix epoch. -/
  modifiedTime : Int64 := 0
  size : UInt64 := 0
  deriving DecidableEq, Repr

namespace Descriptor

def stringsEnd (descriptor : Descriptor) : Nat :=
  descriptor.sourceOffset.toNat + descriptor.sourceLength.toNat +
    descriptor.destinationLength.toNat

def parts (descriptor : Descriptor) : List (Nat × ByteArray) :=
  [(Layout.sourceOffsetAt, encode 8 descriptor.sourceOffset.toNat),
    (Layout.sourceLengthAt, encode 2 descriptor.sourceLength.toNat),
    (Layout.destinationLengthAt, encode 2 descriptor.destinationLength.toNat),
    (Layout.modifiedTimeAt, encode 8 descriptor.modifiedTime.toUInt64.toNat),
    (Layout.sizeAt, encode 8 descriptor.size.toNat)]

def image (descriptor : Descriptor) : ByteArray :=
  Bytes.lay (Bytes.zeros Layout.completionTimeAt) descriptor.parts

/-- Writes a descriptor to the front of a record of at least 32 bytes. -/
def writeTo (descriptor : Descriptor) (record : ByteArray) : ByteArray :=
  Bytes.splice record 0 descriptor.image

def read (record : ByteArray) : Descriptor where
  sourceOffset := UInt64.ofNat (decode (slice record Layout.sourceOffsetAt 8))
  sourceLength := UInt16.ofNat (decode (slice record Layout.sourceLengthAt 2))
  destinationLength := UInt16.ofNat (decode (slice record Layout.destinationLengthAt 2))
  modifiedTime := (UInt64.ofNat (decode (slice record Layout.modifiedTimeAt 8))).toInt64
  size := UInt64.ofNat (decode (slice record Layout.sizeAt 8))

end Descriptor

end TransferLedger.Plan
