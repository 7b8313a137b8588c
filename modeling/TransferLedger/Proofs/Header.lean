import TransferLedger.Plan.Header
import TransferLedger.Proofs.Bytes
import TransferLedger.Proofs.Except
import TransferLedger.Proofs.JobId

namespace TransferLedger.Plan

open Bytes (slice slice_slice slice_append_right slice_append_left)
open Bytes.LittleEndian (encode decode bound size_encode decode_encode)

variable {bytes : ByteArray} {field : TextField} {value : String} {header : Header}
variable {offset width number : Nat}

/-! Headers read back from their images.

A header is carried by any bytes that hold each of its parts in its place, and
reading needs nothing else of them.
-/

namespace TextField

theorem size_image (field : TextField) (fits : value.utf8ByteSize ≤ field.capacity) :
    (field.image value).size = field.lengthWidth + field.capacity := by
  have stored : value.toUTF8.size ≤ field.capacity := fits
  rw [image, ByteArray.size_append, size_encode, Bytes.size_padTo stored]

theorem slice_image :
    slice (field.image value) field.lengthWidth value.utf8ByteSize = value.toUTF8 := by
  have behind := slice_append_right (encode field.lengthWidth value.utf8ByteSize)
    (Bytes.padTo field.capacity value.toUTF8) 0 value.utf8ByteSize
  rw [size_encode, Nat.add_zero] at behind
  exact behind.trans (Bytes.slice_append_self _ _)

theorem read_of_slice (fits : value.utf8ByteSize ≤ field.capacity)
    (narrow : value.utf8ByteSize < bound field.lengthWidth)
    (carried : slice bytes field.offset (field.image value).size = field.image value) :
    field.read bytes = .ok value := by
  have size := field.size_image fits
  rw [size] at carried
  have lengthWord : slice bytes field.offset field.lengthWidth =
      encode field.lengthWidth value.utf8ByteSize := by
    have inside : 0 + field.lengthWidth ≤ field.lengthWidth + field.capacity := by omega
    have inner : slice (slice bytes field.offset (field.lengthWidth + field.capacity)) 0
        field.lengthWidth = slice bytes (field.offset + 0) field.lengthWidth :=
      slice_slice inside
    rw [carried, Nat.add_zero] at inner
    rw [← inner]
    have front := Bytes.slice_append_self (encode field.lengthWidth value.utf8ByteSize)
      (Bytes.padTo field.capacity value.toUTF8)
    rwa [size_encode] at front
  have stored : slice bytes (field.offset + field.lengthWidth) value.utf8ByteSize =
      value.toUTF8 := by
    have inside : field.lengthWidth + value.utf8ByteSize ≤ field.lengthWidth + field.capacity := by
      omega
    rw [← slice_slice inside, carried, slice_image]
  have length : decode (slice bytes field.offset field.lengthWidth) = value.utf8ByteSize := by
    rw [lengthWord, decode_encode narrow]
  have short : ¬ field.capacity < value.utf8ByteSize := by omega
  simp only [read, length, checkLength, if_neg short, ok_bind, stored, text,
    Text.Utf8.decode_toUTF8, mapError_ok]

end TextField

namespace BlobSettings

/-- The texts of the settings are no longer than their fields. -/
structure Fits (settings : BlobSettings) : Prop where
  contentType : settings.contentType.utf8ByteSize ≤ Layout.contentTypeCapacity
  contentEncoding : settings.contentEncoding.utf8ByteSize ≤ Layout.contentEncodingCapacity
  blockBlobTier : settings.blockBlobTier.utf8ByteSize ≤ Layout.blobTierCapacity
  pageBlobTier : settings.pageBlobTier.utf8ByteSize ≤ Layout.blobTierCapacity
  metadata : settings.metadata.utf8ByteSize ≤ Layout.metadataCapacity

end BlobSettings

theorem TextField.check_eq_ok_iff :
    field.check value = .ok () ↔ value.utf8ByteSize ≤ field.capacity := by
  unfold TextField.check TextField.checkLength
  split
  · rename_i long
    simp
    omega
  · rename_i short
    simp
    omega

theorem BlobSettings.validate_eq_ok_iff {settings : BlobSettings} :
    settings.validate = .ok () ↔ settings.Fits := by
  simp only [validate, check_bind_eq_ok_iff, TextField.check_eq_ok_iff]
  constructor
  · rintro ⟨contentType, contentEncoding, blockBlobTier, pageBlobTier, metadata⟩
    exact ⟨contentType, contentEncoding, blockBlobTier, pageBlobTier, metadata⟩
  · rintro ⟨contentType, contentEncoding, blockBlobTier, pageBlobTier, metadata⟩
    exact ⟨contentType, contentEncoding, blockBlobTier, pageBlobTier, metadata⟩

theorem known_code {α : Type} [Coded α] {raw : Int} {value : α}
    (stored : raw = Coded.code value) : known raw = .ok value := by
  rw [known, stored, Coded.ofCode_code, mapError_ok]

namespace Header

/-- The bytes hold every part of the header in its place. -/
def Carried (header : Header) (bytes : ByteArray) : Prop :=
  ∀ part ∈ header.parts, slice bytes part.1 part.2.size = part.2

theorem size_codeByte {α : Type} [Coded α] (value : α) : (codeByte value).size = 1 :=
  size_encode _ _

theorem parts_ascending (fits : header.blob.Fits) :
    Bytes.Ascending 0 Layout.jobStatusAt header.parts := by
  have contentType := TextField.contentType.size_image fits.contentType
  have contentEncoding := TextField.contentEncoding.size_image fits.contentEncoding
  have blockBlobTier := TextField.blockBlobTier.size_image fits.blockBlobTier
  have pageBlobTier := TextField.pageBlobTier.size_image fits.pageBlobTier
  have metadata := TextField.metadata.size_image fits.metadata
  simp only [parts, Bytes.Ascending, flag, size_encode, size_codeByte, JobId.size_toBytes,
    contentType, contentEncoding, blockBlobTier, pageBlobTier, metadata]
  decide

theorem size_image (fits : header.blob.Fits) : header.image.size = Layout.jobStatusAt := by
  have blank : (Bytes.zeros Layout.jobStatusAt).size = Layout.jobStatusAt := Bytes.size_zeros _
  rw [image, Bytes.size_lay (parts_ascending fits) (Nat.le_of_eq blank.symm), blank]

theorem carried_image (fits : header.blob.Fits) : header.Carried header.image := by
  intro part member
  exact Bytes.slice_lay_of_mem (parts_ascending fits) (Nat.le_of_eq (Bytes.size_zeros _).symm)
    member

/-- What follows the image does not matter. -/
theorem carried_append (fits : header.blob.Fits) (rest : ByteArray) :
    header.Carried (header.image ++ rest) := by
  intro part member
  have inside := (parts_ascending fits).within member
  rw [slice_append_left (by rw [size_image fits]; exact inside.2)]
  exact carried_image fits part member

theorem word_of_slice (carried : slice bytes offset width = encode width number)
    (fits : number < bound width) : word bytes offset width = number := by
  rw [word, carried, decode_encode fits]

theorem word_flag (value : Bool) (carried : slice bytes offset 1 = flag value) :
    (word bytes offset 1 != 0) = value := by
  cases value <;> rw [word, carried] <;> rfl

theorem known_codeByte {α : Type} [Coded α] (value : α)
    (small : 0 ≤ Coded.code value ∧ Coded.code value < 256)
    (carried : slice bytes offset 1 = codeByte value) :
    known (word bytes offset 1) = .ok value := by
  have stored : word bytes offset 1 = (Coded.code value).toNat :=
    word_of_slice carried (by simp only [bound]; omega)
  exact known_code (by omega)

theorem word_uint32 (value : UInt32) (carried : slice bytes offset 4 = encode 4 value.toNat) :
    UInt32.ofNat (word bytes offset 4) = value := by
  rw [word_of_slice carried (by simpa only [bound] using value.toNat_lt), UInt32.ofNat_toNat]

theorem Carried.slice_part {patch : ByteArray} (carried : header.Carried bytes) (offset : Nat)
    (member : (offset, patch) ∈ header.parts) (size : patch.size = width) :
    slice bytes offset width = patch :=
  size ▸ carried (offset, patch) member

theorem Carried.read_text (carried : header.Carried bytes) (field : TextField)
    (member : (field.offset, field.image value) ∈ header.parts)
    (fits : value.utf8ByteSize ≤ field.capacity) (wide : field.capacity < bound field.lengthWidth) :
    field.read bytes = .ok value :=
  TextField.read_of_slice fits (by omega) (carried.slice_part _ member rfl)

/-- Bytes that carry a header read as that header. -/
theorem read_of_carried (fits : header.blob.Fits) (long : Layout.jobStatusAt ≤ bytes.size)
    (carried : header.Carried bytes) : read bytes = .ok header := by
  have whole : ¬ bytes.size < Layout.jobStatusAt := by omega
  have version : word bytes Layout.versionAt 4 = Layout.schemaVersion :=
    word_of_slice (carried.slice_part _ (by simp [parts]) (size_encode _ _)) (by decide)
  have jobId : slice bytes Layout.jobIdAt 16 = header.jobId.toBytes.toByteArray :=
    carried.slice_part _ (by simp [parts]) header.jobId.size_toBytes
  have partNumber := word_uint32 header.partNumber.value
    (carried.slice_part Layout.partNumberAt (by simp [parts]) (size_encode _ _))
  have isFinal := word_flag header.isFinal
    (carried.slice_part Layout.isFinalAt (by simp [parts]) (size_encode _ _))
  have priority := known_codeByte header.priority
    (by cases header.priority <;> decide)
    (carried.slice_part Layout.priorityAt (by simp [parts]) (size_codeByte _))
  have lifetime := word_uint32 header.lifetime
    (carried.slice_part Layout.lifetimeAt (by simp [parts]) (size_encode _ _))
  have route := known_codeByte header.route
    (by cases header.route <;> decide)
    (carried.slice_part Layout.routeAt (by simp [parts]) (size_codeByte _))
  have transferCount := word_uint32 header.transferCount
    (carried.slice_part Layout.transferCountAt (by simp [parts]) (size_encode _ _))
  have logLevel := known_codeByte header.logLevel
    (by cases header.logLevel <;> decide)
    (carried.slice_part Layout.logLevelAt (by simp [parts]) (size_codeByte _))
  have keepsContentType := word_flag header.blob.keepsContentType
    (carried.slice_part Layout.keepsContentTypeAt (by simp [parts]) (size_encode _ _))
  have contentType := carried.read_text TextField.contentType
    (by simp [parts, TextField.contentType]) fits.contentType (by decide)
  have contentEncoding := carried.read_text TextField.contentEncoding
    (by simp [parts, TextField.contentEncoding]) fits.contentEncoding (by decide)
  have blockBlobTier := carried.read_text TextField.blockBlobTier
    (by simp [parts, TextField.blockBlobTier]) fits.blockBlobTier (by decide)
  have pageBlobTier := carried.read_text TextField.pageBlobTier
    (by simp [parts, TextField.pageBlobTier]) fits.pageBlobTier (by decide)
  have metadata := carried.read_text TextField.metadata
    (by simp [parts, TextField.metadata]) fits.metadata (by decide)
  have blockSize := word_uint32 header.blob.blockSize
    (carried.slice_part Layout.blockSizeAt (by simp [parts]) (size_encode _ _))
  have keepsModifiedTime := word_flag header.localFile.keepsModifiedTime
    (carried.slice_part Layout.keepsModifiedTimeAt (by simp [parts]) (size_encode _ _))
  simp only [read, if_neg whole, version, ne_eq, not_true_eq_false, if_false, priority, route,
    logLevel, contentType, contentEncoding, blockBlobTier, pageBlobTier, metadata, jobId,
    partNumber, isFinal, lifetime, transferCount, keepsContentType, blockSize, keepsModifiedTime,
    JobId.ofByteArray_toBytes, ok_bind]

/-! Reading looks at nothing behind the job status word. -/

theorem word_slice (inside : offset + width ≤ Layout.jobStatusAt) :
    word (slice bytes 0 Layout.jobStatusAt) offset width = word bytes offset width := by
  rw [word, slice_slice inside, Nat.zero_add, word]

theorem textField_read_slice (bytes : ByteArray) (field : TextField)
    (inside : field.offset + field.lengthWidth + field.capacity ≤ Layout.jobStatusAt) :
    field.read (slice bytes 0 Layout.jobStatusAt) = field.read bytes := by
  unfold TextField.read
  rw [slice_slice (by omega), Nat.zero_add]
  generalize decode (slice bytes field.offset field.lengthWidth) = length
  by_cases long : field.capacity < length
  · simp only [TextField.checkLength, if_pos long, error_bind]
  · simp only [TextField.checkLength, if_neg long, ok_bind]
    rw [slice_slice (by omega), Nat.zero_add]

theorem read_slice (long : Layout.jobStatusAt ≤ bytes.size) :
    read (slice bytes 0 Layout.jobStatusAt) = read bytes := by
  have size : (slice bytes 0 Layout.jobStatusAt).size = Layout.jobStatusAt :=
    Bytes.size_slice_of_le (by omega)
  have whole : ¬ bytes.size < Layout.jobStatusAt := by omega
  have jobId : slice (slice bytes 0 Layout.jobStatusAt) Layout.jobIdAt 16 =
      slice bytes Layout.jobIdAt 16 := by
    rw [slice_slice (by decide), Nat.zero_add]
  have contentType := textField_read_slice bytes .contentType (by decide)
  have contentEncoding := textField_read_slice bytes .contentEncoding (by decide)
  have blockBlobTier := textField_read_slice bytes .blockBlobTier (by decide)
  have pageBlobTier := textField_read_slice bytes .pageBlobTier (by decide)
  have metadata := textField_read_slice bytes .metadata (by decide)
  unfold read
  rw [size, if_neg (Nat.lt_irrefl _), if_neg whole, jobId, contentType, contentEncoding,
    blockBlobTier, pageBlobTier, metadata]
  simp (disch := decide) only [word_slice]

end Header

end TransferLedger.Plan
