import TransferLedger.Json
import TransferLedger.Bytes.Hex
import TransferLedger.Text.Decimal

/-! The names of jobs and of their parts.

A job id is sixteen bytes.  It is written as 32 lower-case digits in groups of
8, 4, 4, 4 and 12, and also read without the hyphens, in braces, or as a URN.
-/

namespace TransferLedger

structure JobId where
  bytes : Vector UInt8 16
  deriving DecidableEq

namespace JobId

def ofBytes? (bytes : List UInt8) : Option JobId :=
  if size : bytes.toArray.size = 16 then some { bytes := ⟨bytes.toArray, size⟩ } else none

/-- The id in the first sixteen bytes; missing ones count as zero. -/
def ofByteArray (bytes : ByteArray) : JobId where
  bytes := Vector.ofFn fun place => bytes.data.getD place.val 0

def toBytes (id : JobId) : List UInt8 :=
  id.bytes.toList

def zero : JobId where
  bytes := Vector.replicate 16 0

instance : Inhabited JobId := ⟨zero⟩

def isZero (id : JobId) : Bool :=
  id == zero

/-- The version that the seventh byte names. -/
def version (id : JobId) : Nat :=
  id.bytes[6].toNat / 16

/-- The two highest bits of the ninth byte. -/
def variant (id : JobId) : Nat :=
  id.bytes[8].toNat / 64

/-- The id made from random bytes.  It gives up six bits to say that it is of
version four and of variant two. -/
def ofRandom (bytes : Vector UInt8 16) : JobId where
  bytes := (bytes.set 6 (UInt8.ofNat (64 + bytes[6].toNat % 16))).set 8
    (UInt8.ofNat (128 + bytes[8].toNat % 64))

/-- Ids are ordered as the sequences of their bytes. -/
instance : Ord JobId where
  compare left right := compare left.toBytes right.toBytes

/-- Puts hyphens behind the digits 8, 12, 16 and 20. -/
def hyphenate (digits : List Char) : List Char :=
  digits.take 8 ++ '-' :: ((digits.drop 8).take 4 ++ '-' :: ((digits.drop 12).take 4 ++
    '-' :: ((digits.drop 16).take 4 ++ '-' :: digits.drop 20)))

/-- Takes the hyphens out of 36 characters that have them in the right places. -/
def dehyphenate? (text : List Char) : Option (List Char) :=
  if text.length = 36 ∧ [8, 13, 18, 23].all fun place => text[place]? == some '-' then
    some (text.take 8 ++ ((text.drop 9).take 4 ++ ((text.drop 14).take 4 ++
      ((text.drop 19).take 4 ++ text.drop 24))))
  else none

def toText (id : JobId) : String :=
  String.ofList (hyphenate (Bytes.Hex.encode id.toBytes))

def digits? (text : List Char) : Option (List Char) :=
  match text.length with
  | 32 => some text
  | 36 => dehyphenate? text
  | 38 =>
      if text.head? = some '\x7b' ∧ text.getLast? = some '\x7d' then
        dehyphenate? (text.drop 1).dropLast
      else none
  | 45 =>
      if (text.take 9).map Char.toLower = "urn:uuid:".toList then dehyphenate? (text.drop 9)
      else none
  | _ => none

def ofText? (text : String) : Option JobId := do
  let digits ← digits? text.toList
  ofBytes? (← Bytes.Hex.decode? digits)

def toJson (id : JobId) : Json :=
  .ofText id.toText

def ofJson? (json : Json) : Option JobId := do
  ofText? (← json.text?)

end JobId

structure PartNumber where
  value : UInt32
  deriving DecidableEq, Inhabited

namespace PartNumber

instance : Ord PartNumber where
  compare left right := compare left.value right.value

def toText (part : PartNumber) : String :=
  String.ofList (Text.Decimal.padded 5 part.value.toNat)

def toJson (part : PartNumber) : Json :=
  .ofNat part.value.toNat

def ofJson? (json : Json) : Option PartNumber :=
  json.uint32?.map fun value => { value }

end PartNumber

end TransferLedger
