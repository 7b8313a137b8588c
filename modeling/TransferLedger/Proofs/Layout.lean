import TransferLedger.Plan.Region
import TransferLedger.Proofs.Header

namespace TransferLedger.Plan

open Bytes (slice slice_slice slice_append_left slice_append_right)
open Bytes.LittleEndian (encode decode bound size_encode decode_encode)

/-! Where the parts of an order stand in its image.

The records and the strings are packed in one pass.  Split into what each item
adds, they can be addressed by index: the record of an item and its two strings
are found at offsets that only the items before it decide.
-/

namespace Descriptor

variable {descriptor : Descriptor} {bytes : ByteArray}

theorem parts_ascending (descriptor : Descriptor) :
    Bytes.Ascending 0 Layout.completionTimeAt descriptor.parts := by
  simp only [parts, Bytes.Ascending, size_encode]
  decide

theorem size_image (descriptor : Descriptor) :
    descriptor.image.size = Layout.completionTimeAt := by
  have blank : (Bytes.zeros Layout.completionTimeAt).size = Layout.completionTimeAt :=
    Bytes.size_zeros _
  rw [image, Bytes.size_lay descriptor.parts_ascending (Nat.le_of_eq blank.symm), blank]

theorem decode_image (descriptor : Descriptor) (offset width number : Nat)
    (member : (offset, encode width number) ∈ descriptor.parts) (fits : number < bound width) :
    decode (slice descriptor.image offset width) = number := by
  have room : Layout.completionTimeAt ≤ (Bytes.zeros Layout.completionTimeAt).size :=
    Nat.le_of_eq (Bytes.size_zeros _).symm
  have laid := Bytes.slice_lay_of_mem descriptor.parts_ascending room member
  rw [size_encode] at laid
  exact Bytes.slice_encode laid fits

theorem read_image (descriptor : Descriptor) : read descriptor.image = descriptor := by
  have sourceOffset := descriptor.decode_image Layout.sourceOffsetAt 8
    descriptor.sourceOffset.toNat (by simp [parts])
    descriptor.sourceOffset.toNat_lt
  have sourceLength := descriptor.decode_image Layout.sourceLengthAt 2
    descriptor.sourceLength.toNat (by simp [parts])
    descriptor.sourceLength.toNat_lt
  have destinationLength := descriptor.decode_image Layout.destinationLengthAt 2
    descriptor.destinationLength.toNat (by simp [parts])
    descriptor.destinationLength.toNat_lt
  have modifiedTime := descriptor.decode_image Layout.modifiedTimeAt 8
    descriptor.modifiedTime.toUInt64.toNat (by simp [parts])
    descriptor.modifiedTime.toUInt64.toNat_lt
  have size := descriptor.decode_image Layout.sizeAt 8 descriptor.size.toNat (by simp [parts])
    descriptor.size.toNat_lt
  simp only [read, sourceOffset, sourceLength, destinationLength, modifiedTime, size,
    UInt64.ofNat_toNat, UInt16.ofNat_toNat, Int64.toInt64_toUInt64]

end Descriptor

namespace Order

variable {order : Order} {item : Item} {items : List Item} {index start : Nat}

/-! ## Valid orders -/

/-- An order that fits the layout. -/
structure Valid (order : Order) : Prop where
  count : order.items.length < UInt32.size
  header : order.header.blob.Fits
  strings : ∀ item ∈ order.items, item.source.utf8ByteSize ≤ Layout.stringCapacity ∧
    item.destination.utf8ByteSize ≤ Layout.stringCapacity

theorem Item.validate_eq_ok_iff : item.validate index = .ok () ↔
    item.source.utf8ByteSize ≤ Layout.stringCapacity ∧
      item.destination.utf8ByteSize ≤ Layout.stringCapacity := by
  unfold Item.validate
  split
  · rename_i long
    simp only [reduceCtorEq, false_iff]
    omega
  · split
    · rename_i long
      simp only [reduceCtorEq, false_iff]
      omega
    · rename_i sourceFits destinationFits
      simp only [true_iff]
      omega

theorem validateItems_eq_ok_iff : validateItems index items = .ok () ↔
    ∀ item ∈ items, item.source.utf8ByteSize ≤ Layout.stringCapacity ∧
      item.destination.utf8ByteSize ≤ Layout.stringCapacity := by
  induction items generalizing index with
  | nil => simp [validateItems]
  | cons first rest ih =>
      rw [List.forall_mem_cons, ← @ih (index + 1)]
      cases checked : first.validate index with
      | error fault =>
          have long : ¬ (first.source.utf8ByteSize ≤ Layout.stringCapacity ∧
              first.destination.utf8ByteSize ≤ Layout.stringCapacity) := by
            intro short
            have passed : first.validate index = .ok () := Item.validate_eq_ok_iff.2 short
            rw [checked] at passed
            cases passed
          simp [validateItems, checked, long]
      | ok _ =>
          have short := Item.validate_eq_ok_iff.1 checked
          simp [validateItems, checked, short]

theorem count_eq_ok (few : order.items.length < UInt32.size) :
    order.count = .ok (UInt32.ofNat order.items.length) :=
  if_pos few

theorem validate_eq_ok_iff : order.validate = .ok () ↔ order.Valid := by
  rw [validate, bind_eq_ok_iff]
  simp only [check_bind_eq_ok_iff, BlobSettings.validate_eq_ok_iff, validateItems_eq_ok_iff]
  constructor
  · rintro ⟨_, counted, header, strings⟩
    have few : order.items.length < UInt32.size := by
      unfold count at counted
      split at counted
      · assumption
      · cases counted
    exact ⟨few, header, strings⟩
  · rintro ⟨few, header, strings⟩
    exact ⟨_, count_eq_ok few, header, strings⟩

/-! ## What the items add -/

def lengthOf (items : List Item) : Nat :=
  items.foldr (fun item rest => item.length + rest) 0

/-- The records of items whose strings begin at `start`. -/
def recordBytes (start : Nat) : List Item → ByteArray
  | [] => .empty
  | item :: rest => item.record start ++ recordBytes (start + item.length) rest

def stringBytes : List Item → ByteArray
  | [] => .empty
  | item :: rest => item.source.toUTF8 ++ item.destination.toUTF8 ++ stringBytes rest

def sourceOffset (order : Order) (index : Nat) : Nat :=
  Layout.stringsAt order.items.length + lengthOf (order.items.take index)

theorem foldl_add (base : Nat) (packing : Packing) (items : List Item) :
    items.foldl (Packing.add base) packing =
      { records := packing.records ++ recordBytes (base + packing.strings.size) items
        strings := packing.strings ++ stringBytes items } := by
  induction items generalizing packing with
  | nil => simp [recordBytes, stringBytes]
  | cons item rest ih =>
      have grown : base + (packing.strings ++ item.source.toUTF8 ++ item.destination.toUTF8).size =
          base + packing.strings.size + item.length := by
        simp only [ByteArray.size_append, Nat.add_assoc]
        rfl
      rw [List.foldl_cons, ih]
      simp only [Packing.add, grown, recordBytes, stringBytes]
      simp only [ByteArray.append_assoc]

theorem pack_eq (order : Order) :
    order.pack =
      { records := recordBytes (Layout.stringsAt order.items.length) order.items
        strings := stringBytes order.items } := by
  have packed := foldl_add (Layout.stringsAt order.items.length) {} order.items
  rw [ByteArray.empty_append, ByteArray.empty_append] at packed
  exact packed

theorem size_record (item : Item) (start : Nat) : (item.record start).size = Layout.recordSize := by
  simp only [Item.record, transferWord, ByteArray.size_append, Descriptor.size_image,
    Bytes.size_zeros, size_encode]
  rfl

theorem size_recordBytes (start : Nat) (items : List Item) :
    (recordBytes start items).size = items.length * Layout.recordSize := by
  induction items generalizing start with
  | nil => rfl
  | cons item rest ih =>
      rw [recordBytes, ByteArray.size_append, size_record, ih, List.length_cons, Nat.succ_mul,
        Nat.add_comm]

theorem size_stringBytes (items : List Item) : (stringBytes items).size = lengthOf items := by
  induction items with
  | nil => rfl
  | cons item rest ih =>
      rw [stringBytes, ByteArray.size_append, ByteArray.size_append, ih]
      rfl

theorem lengthOf_cons (item : Item) (items : List Item) :
    lengthOf (item :: items) = item.length + lengthOf items :=
  rfl

theorem lengthOf_take_succ (found : items[index]? = some item) :
    lengthOf (items.take (index + 1)) = lengthOf (items.take index) + item.length := by
  induction items generalizing index with
  | nil => simp at found
  | cons first rest ih =>
      cases index with
      | zero =>
          simp only [List.getElem?_cons_zero, Option.some.injEq] at found
          subst first
          simp only [List.take_succ_cons, List.take_zero, lengthOf, List.foldr_cons,
            List.foldr_nil]
          omega
      | succ index =>
          have later := ih (by simpa using found)
          rw [List.take_succ_cons, List.take_succ_cons, lengthOf_cons, lengthOf_cons, later,
            Nat.add_assoc]

theorem lengthOf_take_mono {other : Nat} (before : index ≤ other) :
    lengthOf (items.take index) ≤ lengthOf (items.take other) := by
  induction items generalizing index other with
  | nil => simp only [List.take_nil, Nat.le_refl]
  | cons first rest ih =>
      cases index with
      | zero => exact Nat.zero_le _
      | succ index =>
          cases other with
          | zero => omega
          | succ other =>
              have later := ih (Nat.le_of_succ_le_succ before)
              rw [List.take_succ_cons, List.take_succ_cons, lengthOf_cons, lengthOf_cons]
              exact Nat.add_le_add_left later _

/-- The strings up to and with those of an item lie within the strings of all. -/
theorem lengthOf_take_add_le (found : items[index]? = some item) :
    lengthOf (items.take index) + item.length ≤ lengthOf items := by
  have inside := (List.getElem?_eq_some_iff.1 found).1
  have all : lengthOf (items.take (index + 1)) ≤ lengthOf (items.take items.length) :=
    lengthOf_take_mono inside
  rwa [List.take_length, lengthOf_take_succ found] at all

theorem lengthOf_le (short : ∀ item ∈ items, item.source.utf8ByteSize ≤ Layout.stringCapacity ∧
    item.destination.utf8ByteSize ≤ Layout.stringCapacity) :
    lengthOf items ≤ items.length * (2 * Layout.stringCapacity) := by
  induction items with
  | nil => exact Nat.le_refl 0
  | cons item rest ih =>
      obtain ⟨⟨source, destination⟩, later⟩ := List.forall_mem_cons.1 short
      have behind := ih later
      rw [lengthOf_cons, List.length_cons, Nat.succ_mul, Item.length]
      omega

theorem slice_recordBytes (found : items[index]? = some item) :
    slice (recordBytes start items) (index * Layout.recordSize) Layout.recordSize =
      item.record (start + lengthOf (items.take index)) := by
  induction items generalizing index start with
  | nil => simp at found
  | cons first rest ih =>
      cases index with
      | zero =>
          simp only [List.getElem?_cons_zero, Option.some.injEq] at found
          subst first
          have front := Bytes.slice_append_self (item.record start)
            (recordBytes (start + item.length) rest)
          rw [size_record] at front
          rw [recordBytes, Nat.zero_mul, front]
          rfl
      | succ index =>
          have later := @ih index (start + first.length) (by simpa using found)
          have behind := slice_append_right (first.record start)
            (recordBytes (start + first.length) rest) (index * Layout.recordSize)
            Layout.recordSize
          rw [size_record, later] at behind
          have place : (index + 1) * Layout.recordSize =
              Layout.recordSize + index * Layout.recordSize := by
            rw [Nat.succ_mul, Nat.add_comm]
          rw [recordBytes, place, behind, List.take_succ_cons, lengthOf_cons, Nat.add_assoc]

theorem slice_stringBytes (found : items[index]? = some item) :
    slice (stringBytes items) (lengthOf (items.take index)) item.length =
      item.source.toUTF8 ++ item.destination.toUTF8 := by
  induction items generalizing index with
  | nil => simp at found
  | cons first rest ih =>
      cases index with
      | zero =>
          simp only [List.getElem?_cons_zero, Option.some.injEq] at found
          subst first
          have front := Bytes.slice_append_self
            (item.source.toUTF8 ++ item.destination.toUTF8) (stringBytes rest)
          rw [ByteArray.size_append] at front
          exact front
      | succ index =>
          have later := @ih index (by simpa using found)
          have behind := slice_append_right
            (first.source.toUTF8 ++ first.destination.toUTF8) (stringBytes rest)
            (lengthOf (rest.take index)) item.length
          rw [ByteArray.size_append, later] at behind
          rw [List.take_succ_cons, lengthOf_cons]
          exact behind

/-- No offset of a string needs more than 64 bits. -/
theorem Valid.sourceOffset_add_lt (valid : order.Valid) (found : order.items[index]? = some item) :
    order.sourceOffset index + item.length < UInt64.size := by
  have few := valid.count
  have inside := lengthOf_take_add_le found
  have total := lengthOf_le valid.strings
  simp only [sourceOffset, Layout.stringsAt, Layout.recordAt, Layout.headerSize,
    Layout.recordSize, Layout.stringCapacity, UInt32.size, UInt64.size] at *
  omega

/-! A descriptor has room for what it says of a valid order. -/

theorem Valid.toNat_sourceOffset (valid : order.Valid) (found : order.items[index]? = some item) :
    (item.descriptor (order.sourceOffset index)).sourceOffset.toNat = order.sourceOffset index := by
  have small := valid.sourceOffset_add_lt found
  exact UInt64.toNat_ofNat_of_lt (by omega)

theorem Valid.toNat_sourceLength (valid : order.Valid) (found : order.items[index]? = some item) :
    (item.descriptor start).sourceLength.toNat = item.source.utf8ByteSize := by
  have fits := (valid.strings item (List.mem_of_getElem? found)).1
  exact UInt16.toNat_ofNat_of_lt (Nat.lt_succ_of_le fits)

theorem Valid.toNat_destinationLength (valid : order.Valid)
    (found : order.items[index]? = some item) :
    (item.descriptor start).destinationLength.toNat = item.destination.utf8ByteSize := by
  have fits := (valid.strings item (List.mem_of_getElem? found)).2
  exact UInt16.toNat_ofNat_of_lt (Nat.lt_succ_of_le fits)

/-! ## The image -/

theorem image_eq (order : Order) :
    order.image = order.planHeader.image ++ (jobWord .inProgress ++
      (recordBytes (Layout.stringsAt order.items.length) order.items ++
        stringBytes order.items)) := by
  simp only [image, pack_eq, ByteArray.append_assoc]

theorem size_image (fits : order.header.blob.Fits) :
    order.image.size = Layout.regionLength order.items.length order.stringsLength := by
  have header : order.planHeader.image.size = Layout.jobStatusAt :=
    Header.size_image (show order.planHeader.blob.Fits from fits)
  rw [image_eq]
  simp only [ByteArray.size_append, header, jobWord, size_encode, size_recordBytes,
    size_stringBytes, Layout.regionLength, Layout.stringsAt, Layout.recordAt, Layout.jobStatusAt,
    Layout.headerSize, lengthOf, stringsLength]
  omega

theorem carried_image (fits : order.header.blob.Fits) : order.planHeader.Carried order.image := by
  rw [image_eq]
  exact Header.carried_append (show order.planHeader.blob.Fits from fits) _

theorem slice_image_jobStatus (fits : order.header.blob.Fits) :
    slice order.image Layout.jobStatusAt 4 = jobWord .inProgress := by
  have header : order.planHeader.image.size = Layout.jobStatusAt :=
    Header.size_image (show order.planHeader.blob.Fits from fits)
  rw [image_eq, ← header, ← Nat.add_zero order.planHeader.image.size, slice_append_right]
  exact Bytes.slice_append_self _ _

theorem slice_image_records (fits : order.header.blob.Fits) (offset length : Nat) :
    slice order.image (Layout.headerSize + offset) length =
      slice (recordBytes (Layout.stringsAt order.items.length) order.items ++
        stringBytes order.items) offset length := by
  have header : order.planHeader.image.size = Layout.jobStatusAt :=
    Header.size_image (show order.planHeader.blob.Fits from fits)
  have word : (jobWord .inProgress).size = 4 := size_encode _ _
  have behind : Layout.headerSize + offset =
      order.planHeader.image.size + ((jobWord .inProgress).size + offset) := by
    rw [header, word, ← Nat.add_assoc]
    rfl
  rw [image_eq, behind, slice_append_right, slice_append_right]

theorem slice_image_record (fits : order.header.blob.Fits)
    (found : order.items[index]? = some item) :
    slice order.image (Layout.recordAt index) Layout.recordSize =
      item.record (order.sourceOffset index) := by
  have bound := (List.getElem?_eq_some_iff.1 found).1
  rw [Layout.recordAt, slice_image_records fits, slice_append_left, slice_recordBytes found]
  · rfl
  · rw [size_recordBytes, ← Nat.succ_mul]
    exact Nat.mul_le_mul_right _ bound

theorem slice_image_strings (fits : order.header.blob.Fits)
    (found : order.items[index]? = some item) :
    slice order.image (order.sourceOffset index) item.length =
      item.source.toUTF8 ++ item.destination.toUTF8 := by
  have behind : order.sourceOffset index = Layout.headerSize +
      ((recordBytes (Layout.stringsAt order.items.length) order.items).size +
        lengthOf (order.items.take index)) := by
    rw [size_recordBytes, ← Nat.add_assoc]
    rfl
  rw [behind, slice_image_records fits, slice_append_right, slice_stringBytes found]

theorem slice_image_descriptor (fits : order.header.blob.Fits)
    (found : order.items[index]? = some item) :
    slice order.image (Layout.recordAt index) Layout.completionTimeAt =
      (item.descriptor (order.sourceOffset index)).image := by
  have front : 0 + Layout.completionTimeAt ≤ Layout.recordSize := by decide
  have whole := Bytes.slice_append_self (item.descriptor (order.sourceOffset index)).image
    (Bytes.zeros 8 ++ (transferWord .notStarted ++ Bytes.zeros 4))
  rw [Descriptor.size_image] at whole
  rw [← Nat.add_zero (Layout.recordAt index), ← slice_slice front,
    slice_image_record fits found, Item.record, ByteArray.append_assoc, ByteArray.append_assoc,
    whole]

theorem slice_image_source (fits : order.header.blob.Fits)
    (found : order.items[index]? = some item) :
    slice order.image (order.sourceOffset index) item.source.utf8ByteSize =
      item.source.toUTF8 := by
  have front : 0 + item.source.utf8ByteSize ≤ item.length := by rw [Item.length]; omega
  rw [← Nat.add_zero (order.sourceOffset index), ← slice_slice front,
    slice_image_strings fits found]
  exact Bytes.slice_append_self _ _

theorem slice_image_destination (fits : order.header.blob.Fits)
    (found : order.items[index]? = some item) :
    slice order.image (order.sourceOffset index + item.source.utf8ByteSize)
      item.destination.utf8ByteSize = item.destination.toUTF8 := by
  have behind : item.source.utf8ByteSize + item.destination.utf8ByteSize ≤ item.length :=
    Nat.le_refl _
  rw [← slice_slice behind, slice_image_strings fits found]
  exact Bytes.slice_append_rest _ _

end Order

end TransferLedger.Plan
