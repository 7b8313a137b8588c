import TransferLedger.JobStatus
import TransferLedger.Plan.Descriptor
import TransferLedger.Plan.Header
import TransferLedger.TransferStatus

/-! Orders for job parts, and the regions that they are laid out in.

A valid order fixes every byte of its plan.  Writing it into a buffer either
replaces the whole buffer by that image or fails without an effect.
-/

namespace TransferLedger.Plan

open Bytes.LittleEndian (encode)

def jobWord (status : JobStatus) : ByteArray :=
  encode 4 status.code.toNat

/-- The word that holds the status of a transfer, in two's complement. -/
def transferWord (status : TransferStatus) : ByteArray :=
  encode 4 (Int32.ofInt status.code).toUInt32.toNat

structure Order.Item where
  source : String := ""
  destination : String := ""
  /-- Nanoseconds since the Unix epoch. -/
  modifiedTime : Int64 := 0
  size : UInt64 := 0
  deriving DecidableEq

/-- All that is needed for a new plan.  The transfer count in the header is not
used: a plan records the number of its items. -/
structure Order where
  header : Header := {}
  items : List Order.Item := []

namespace Order

namespace Item

def length (item : Item) : Nat :=
  item.source.utf8ByteSize + item.destination.utf8ByteSize

def validate (item : Item) (index : Nat) : Except Fault Unit :=
  if Layout.stringCapacity < item.source.utf8ByteSize then
    .error (.stringTooLong index item.source.utf8ByteSize)
  else if Layout.stringCapacity < item.destination.utf8ByteSize then
    .error (.stringTooLong index item.destination.utf8ByteSize)
  else .ok ()

def descriptor (item : Item) (sourceOffset : Nat) : Descriptor where
  sourceOffset := UInt64.ofNat sourceOffset
  sourceLength := UInt16.ofNat item.source.utf8ByteSize
  destinationLength := UInt16.ofNat item.destination.utf8ByteSize
  modifiedTime := item.modifiedTime
  size := item.size

def record (item : Item) (sourceOffset : Nat) : ByteArray :=
  (item.descriptor sourceOffset).image ++ Bytes.zeros 8 ++ transferWord .notStarted ++
    Bytes.zeros 4

end Item

/-- Validates items whose first one has the given index. -/
def validateItems (first : Nat) : List Item → Except Fault Unit
  | [] => .ok ()
  | item :: rest =>
      match item.validate first with
      | .ok () => validateItems (first + 1) rest
      | .error fault => .error fault

def count (order : Order) : Except Fault UInt32 :=
  if order.items.length < UInt32.size then .ok (UInt32.ofNat order.items.length)
  else .error (.tooManyTransfers order.items.length)

def validate (order : Order) : Except Fault Unit := do
  let _ ← order.count
  order.header.blob.validate
  validateItems 0 order.items

def stringsLength (order : Order) : Nat :=
  order.items.foldr (fun item rest => item.length + rest) 0

def regionLength (order : Order) : Except Fault Nat := do
  let count ← order.count
  .ok (Layout.regionLength count.toNat order.stringsLength)

/-- Records and strings laid out so far. -/
structure Packing where
  records : ByteArray := .empty
  strings : ByteArray := .empty

/-- Adds an item to a packing whose strings begin at `base`. -/
def Packing.add (base : Nat) (packing : Packing) (item : Item) : Packing :=
  let offset := base + packing.strings.size
  match packing with
  | { records, strings } =>
      { records := records ++ item.record offset
        strings := strings ++ item.source.toUTF8 ++ item.destination.toUTF8 }

def pack (order : Order) : Packing :=
  order.items.foldl (Packing.add (Layout.stringsAt order.items.length)) {}

/-- The header that the plan of this order carries. -/
def planHeader (order : Order) : Header :=
  { order.header with transferCount := UInt32.ofNat order.items.length }

/-- The whole region of a valid order. -/
def image (order : Order) : ByteArray :=
  let packing := order.pack
  order.planHeader.image ++ jobWord .inProgress ++ packing.records ++ packing.strings

/-- Lays the order out in a buffer of exactly the right length. -/
def writeTo (order : Order) (buffer : ByteArray) : Except Fault ByteArray := do
  order.validate
  let needed ← order.regionLength
  if buffer.size ≠ needed then .error (.truncated buffer.size needed)
  else .ok order.image

end Order

end TransferLedger.Plan
