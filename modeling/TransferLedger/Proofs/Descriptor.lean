import TransferLedger.Proofs.Format
import TransferLedger.Proofs.Packing

/-! Descriptors written over records and read from them.

The parts of a descriptor leave four bytes between its lengths and its times free.  Writing
makes these zero, and the number in every part is read back; so what was read and is written
again differs from what it was read from in those four bytes at most.
-/

namespace TransferLedger.Plan

open Bytes (slice zeros)
open Bytes.LittleEndian (encode decode bound size_encode)
open Header (word)

variable {record : ByteArray} {descriptor : Descriptor} {offset length width limit : Nat}

theorem Piecewise.number_of_le (inside : offset + width ≤ min limit record.size) :
    number limit record offset width = .ok (word record offset width) := by
  rw [number, piece, if_pos inside, ok_bind]
  rfl

theorem Piecewise.descriptor_eq (enough : Layout.completionTimeAt ≤ limit)
    (long : Layout.completionTimeAt ≤ record.size) :
    Piecewise.descriptor limit record = .ok (Descriptor.read record) := by
  have within {finish : Nat} (front : finish ≤ Layout.completionTimeAt) :
      finish ≤ min limit record.size := Nat.le_min.2 ⟨by omega, by omega⟩
  rw [Piecewise.descriptor, number_of_le (within (by decide)), ok_bind,
    number_of_le (within (by decide)), ok_bind, number_of_le (within (by decide)), ok_bind,
    number_of_le (within (by decide)), ok_bind, number_of_le (within (by decide)), ok_bind]
  rfl

namespace Descriptor

/-- The bytes that no part of a descriptor uses. -/
theorem gaps_parts (descriptor : Descriptor) :
    Bytes.gaps Layout.completionTimeAt 0 descriptor.parts = [(12, 4)] := by
  simp only [parts, Bytes.gaps, size_encode]
  decide

theorem slice_image (member : (offset, encode width length) ∈ descriptor.parts) :
    slice descriptor.image offset width = encode width length := by
  have laid := Bytes.slice_lay_of_mem descriptor.parts_ascending
    (Nat.le_of_eq (Bytes.size_zeros _).symm) member
  rwa [size_encode] at laid

theorem slice_image_gap (descriptor : Descriptor) : slice descriptor.image 12 4 = zeros 4 := by
  have blank : (zeros Layout.completionTimeAt).size = Layout.completionTimeAt := Bytes.size_zeros _
  have free := ((Bytes.slice_lay_eq_iff descriptor.parts_ascending
    (Nat.le_of_eq blank.symm)).1 rfl).2 (12, 4) (by rw [gaps_parts]; decide)
  exact free.trans (Bytes.slice_zeros (by decide))

/-- The number in every part is kept whole when it is read. -/
theorem parts_read (long : Layout.completionTimeAt ≤ record.size) :
    (read record).parts =
      [(0, encode 8 (word record 0 8)), (8, encode 2 (word record 8 2)),
        (10, encode 2 (word record 10 2)), (16, encode 8 (word record 16 8)),
        (24, encode 8 (word record 24 8))] := by
  have below {offset width : Nat} (front : offset + width ≤ Layout.completionTimeAt) :
      word record offset width < bound width :=
    Header.word_lt (Nat.le_trans front long)
  have sourceOffset : (UInt64.ofNat (word record 0 8)).toNat = word record 0 8 :=
    UInt64.toNat_ofNat_of_lt' (below (by decide))
  have sourceLength : (UInt16.ofNat (word record 8 2)).toNat = word record 8 2 :=
    UInt16.toNat_ofNat_of_lt' (below (by decide))
  have destinationLength : (UInt16.ofNat (word record 10 2)).toNat = word record 10 2 :=
    UInt16.toNat_ofNat_of_lt' (below (by decide))
  have modifiedTime : (UInt64.ofNat (word record 16 8)).toNat = word record 16 8 :=
    UInt64.toNat_ofNat_of_lt' (below (by decide))
  have size : (UInt64.ofNat (word record 24 8)).toNat = word record 24 8 :=
    UInt64.toNat_ofNat_of_lt' (below (by decide))
  simp only [word] at sourceOffset sourceLength destinationLength modifiedTime size
  simp only [parts, read, Layout.sourceOffsetAt, Layout.sourceLengthAt,
    Layout.destinationLengthAt, Layout.modifiedTimeAt, Layout.sizeAt, sourceOffset, sourceLength,
    destinationLength, UInt64.toUInt64_toInt64, modifiedTime, size, word]

theorem slice_image_read (long : Layout.completionTimeAt ≤ record.size)
    (member : (offset, encode width (word record offset width)) ∈ (read record).parts) :
    slice (read record).image offset width = slice record offset width := by
  have inside := (parts_ascending (read record)).within member
  rw [size_encode] at inside
  rw [slice_image member]
  exact ((Header.slice_eq_encode_iff (by omega) (Header.word_lt (by omega))).2 rfl).symm

/-- What is written again is what was read, but for the four bytes that no part uses. -/
theorem image_read (long : Layout.completionTimeAt ≤ record.size) :
    slice (read record).image 0 12 = slice record 0 12 ∧
    slice (read record).image 12 4 = zeros 4 ∧
    slice (read record).image 16 16 = slice record 16 16 := by
  have known := parts_read long
  have held {offset width : Nat}
      (member : (offset, encode width (word record offset width)) ∈ (read record).parts) :
      slice (read record).image offset width = slice record offset width :=
    slice_image_read long member
  have lengths : slice (read record).image 8 (2 + 2) = slice record 8 (2 + 2) :=
    Bytes.slice_add_eq_iff.2 ⟨held (by simp [known]), held (by simp [known])⟩
  have front : slice (read record).image 0 (8 + 4) = slice record 0 (8 + 4) :=
    Bytes.slice_add_eq_iff.2 ⟨held (by simp [known]), lengths⟩
  have behind : slice (read record).image 16 (8 + 8) = slice record 16 (8 + 8) :=
    Bytes.slice_add_eq_iff.2 ⟨held (by simp [known]), held (by simp [known])⟩
  exact ⟨front, slice_image_gap _, behind⟩

theorem slice_writeTo_front (descriptor : Descriptor)
    (long : Layout.completionTimeAt ≤ record.size) :
    slice (descriptor.writeTo record) 0 Layout.completionTimeAt = descriptor.image := by
  have size := descriptor.size_image
  have laid : slice (descriptor.writeTo record) 0 descriptor.image.size = descriptor.image :=
    Bytes.slice_splice_self (by omega)
  rwa [size] at laid

theorem slice_writeTo_behind (descriptor : Descriptor)
    (long : Layout.completionTimeAt ≤ record.size) (behind : Layout.completionTimeAt ≤ offset) :
    slice (descriptor.writeTo record) offset length = slice record offset length := by
  have size := descriptor.size_image
  exact Bytes.slice_splice_of_ge (by omega) (by omega)

theorem size_writeTo (descriptor : Descriptor) (long : Layout.completionTimeAt ≤ record.size) :
    (descriptor.writeTo record).size = record.size := by
  have size := descriptor.size_image
  exact Bytes.size_splice (by omega)

theorem read_writeTo (descriptor : Descriptor) (long : Layout.completionTimeAt ≤ record.size) :
    read (descriptor.writeTo record) = descriptor := by
  have front := slice_writeTo_front descriptor long
  have same : read (slice (descriptor.writeTo record) 0 Layout.completionTimeAt) =
      read (descriptor.writeTo record) := by
    simp (disch := decide) only [read, Bytes.slice_slice, Nat.zero_add]
  rw [← same, front, read_image]

/-- A descriptor is written over the first 32 bytes of a record, whatever they held, and is read
back from them; nothing else of the record is changed or looked at.  Every record of at least 32
bytes is read, and what was read is written as the bytes that it was read from, with zeros in the
four that no part uses. -/
theorem codec_exact (record : ByteArray) (long : 32 ≤ record.size) :
    (∀ descriptor : Descriptor,
      InPlace.descriptor descriptor record = (.ok (), descriptor.writeTo record) ∧
      (descriptor.writeTo record).size = record.size ∧
      slice (descriptor.writeTo record) 0 32 = descriptor.image ∧
      (∀ offset length, 32 ≤ offset →
        slice (descriptor.writeTo record) offset length = slice record offset length) ∧
      ∀ limit, 32 ≤ limit →
        Piecewise.descriptor limit (descriptor.writeTo record) = .ok descriptor) ∧
    (∀ limit, 32 ≤ limit → Piecewise.descriptor limit record = .ok (read record)) ∧
    ∀ buffer : ByteArray, 32 ≤ buffer.size → ∃ again,
      InPlace.descriptor (read record) buffer = (.ok (), again) ∧
      slice again 0 12 = slice record 0 12 ∧ slice again 12 4 = zeros 4 ∧
      slice again 16 16 = slice record 16 16 := by
  have written (descriptor : Descriptor) {buffer : ByteArray} (room : 32 ≤ buffer.size) :
      InPlace.descriptor descriptor buffer = (.ok (), descriptor.writeTo buffer) :=
    (InPlace.lays_descriptor descriptor buffer room).1
  refine ⟨fun descriptor => ⟨written descriptor long, size_writeTo descriptor long,
    slice_writeTo_front descriptor long,
    fun offset length behind => slice_writeTo_behind descriptor long behind, fun limit enough => ?_⟩,
    fun limit enough => Piecewise.descriptor_eq enough long, fun buffer room => ?_⟩
  · have same := size_writeTo descriptor long
    rw [Piecewise.descriptor_eq enough (by rw [same]; exact long), read_writeTo descriptor long]
  · obtain ⟨front, gap, behind⟩ := image_read long
    have laid := slice_writeTo_front (read record) room
    have inside {start count : Nat} (within : start + count ≤ Layout.completionTimeAt) :
        slice ((read record).writeTo buffer) start count = slice (read record).image start count := by
      rw [← laid, Bytes.slice_slice within, Nat.zero_add]
    refine ⟨_, written (read record) room, ?_, ?_, ?_⟩
    · rw [inside (by decide), front]
    · rw [inside (by decide), gap]
    · rw [inside (by decide), behind]

/-- The greatest offset and a time before the epoch, over a record that is full of other bytes. -/
theorem codec_exact_beforeEpoch :
    let descriptor : Descriptor := {
      sourceOffset := 18446744073709551615
      sourceLength := 65535
      modifiedTime := -9223372036854775808
      size := 1 }
    let record : ByteArray := ⟨Array.replicate 48 0xAA⟩
    (∃ after, InPlace.descriptor descriptor record = (.ok (), after) ∧
      Piecewise.descriptor 32 after = .ok descriptor ∧ slice after 32 16 = slice record 32 16) ∧
    ∃ again, InPlace.descriptor (read record) record = (.ok (), again) ∧
      slice again 0 12 = slice record 0 12 ∧ slice again 12 4 = zeros 4 := by
  intro descriptor record
  have size : record.size = 48 := Array.size_replicate
  obtain ⟨writes, -, rewrites⟩ := codec_exact record (by omega)
  obtain ⟨written, -, -, behind, back⟩ := writes descriptor
  obtain ⟨again, rewritten, front, gap, -⟩ := rewrites record (by omega)
  exact ⟨⟨_, written, back 32 (Nat.le_refl _), behind 32 16 (Nat.le_refl _)⟩,
    again, rewritten, front, gap⟩

end Descriptor

end TransferLedger.Plan
