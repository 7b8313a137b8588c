import TransferLedger.Plan.InPlace
import TransferLedger.Proofs.Layout

/-! What is left in a buffer by a writing in place.

A writing whose pieces stand where they fit lays them into the buffer and changes nothing
else.  So the pieces of a header come to its image at the front of the buffer, and those of
a record to its image, whatever the buffer held before.
-/

namespace TransferLedger.Plan

open Bytes (slice splice lay Ascending)
open Bytes.LittleEndian (encode size_encode)

/-! ## The first of several faults -/

def firstOf : List Fault → Except Fault Unit
  | [] => .ok ()
  | fault :: _ => .error fault

theorem firstOf_append (faults more : List Fault) :
    firstOf (faults ++ more) = firstOf faults >>= fun _ => firstOf more := by
  cases faults with
  | nil => rfl
  | cons fault rest => rfl

theorem firstOf_eq_ok_iff {faults : List Fault} : firstOf faults = .ok () ↔ faults = [] := by
  cases faults with
  | nil => simp [firstOf]
  | cons fault rest => simp [firstOf]

theorem firstOf_eq_error_iff {faults : List Fault} {fault : Fault} :
    firstOf faults = .error fault ↔ faults.head? = some fault := by
  cases faults with
  | nil => simp [firstOf]
  | cons first rest => simp [firstOf]

/-- The fault of a text that is longer than its field. -/
def excess (field : String) (capacity : Nat) (text : String) : List Fault :=
  if capacity < text.utf8ByteSize then [.fieldTooLong field text.utf8ByteSize capacity] else []

theorem TextField.check_eq_firstOf (field : TextField) (text : String) :
    field.check text = firstOf (excess field.name field.capacity text) := by
  rw [check, checkLength, excess]
  split <;> rfl

/-- Every text that is too long, in the order in which they are checked. -/
def BlobSettings.oversized (settings : BlobSettings) : List Fault :=
  excess "content type" 256 settings.contentType ++
    (excess "content encoding" 256 settings.contentEncoding ++
      (excess "block blob tier" 10 settings.blockBlobTier ++
        (excess "page blob tier" 10 settings.pageBlobTier ++
          excess "metadata" 1000 settings.metadata)))

theorem BlobSettings.validate_eq_firstOf (settings : BlobSettings) :
    settings.validate = firstOf settings.oversized := by
  simp only [oversized, firstOf_append, validate, TextField.check_eq_firstOf]
  rfl

theorem mem_excess {field text : String} {capacity : Nat} {fault : Fault}
    (raised : fault ∈ excess field capacity text) :
    ∃ field length capacity, fault = .fieldTooLong field length capacity := by
  unfold excess at raised
  split at raised
  · exact ⟨_, _, _, List.mem_singleton.1 raised⟩
  · cases raised

theorem BlobSettings.mem_oversized {settings : BlobSettings} {fault : Fault}
    (raised : fault ∈ settings.oversized) :
    ∃ field length capacity, fault = .fieldTooLong field length capacity := by
  simp only [oversized, List.mem_append] at raised
  rcases raised with raised | raised | raised | raised | raised
  · exact mem_excess raised
  · exact mem_excess raised
  · exact mem_excess raised
  · exact mem_excess raised
  · exact mem_excess raised

theorem BlobSettings.fits_iff {settings : BlobSettings} :
    settings.Fits ↔ settings.oversized = [] := by
  rw [← validate_eq_ok_iff, validate_eq_firstOf, firstOf_eq_ok_iff]

namespace InPlace

variable {α β : Type} {writing next : Writing Unit} {parts more : List (Nat × ByteArray)}
variable {buffer after piece image : ByteArray} {offset length width : Nat}

/-! ## Steps of a writing -/

theorem ok_then {first : Writing α} {second : α → Writing β} {value : α}
    (done : first buffer = (.ok value, after)) :
    (first >>= second) buffer = second value after := by
  dsimp only [bind]
  rw [done]

theorem error_then {first : Writing α} {second : α → Writing β} {reason : Stop}
    (failed : first buffer = (.error reason, after)) :
    (first >>= second) buffer = (.error reason, after) := by
  dsimp only [bind]
  rw [failed]

theorem check_ok {result : Except Fault α} {value : α} (passed : result = .ok value) :
    check result buffer = (.ok value, buffer) := by
  rw [check, passed, mapError_ok]

theorem check_error {result : Except Fault α} {fault : Fault} (failed : result = .error fault) :
    check result buffer = (.error (.fault fault), buffer) := by
  rw [check, failed, mapError_error]

/-- On every buffer that is long enough the writing lays the parts, and the buffer keeps its
size. -/
def Lays (length : Nat) (writing : Writing Unit) (parts : List (Nat × ByteArray)) : Prop :=
  ∀ buffer : ByteArray, length ≤ buffer.size →
    writing buffer = (.ok (), lay buffer parts) ∧ (lay buffer parts).size = buffer.size

theorem put_eq (within : offset + piece.size ≤ buffer.size) :
    put offset piece buffer = (.ok (), splice buffer offset piece) :=
  if_pos within

theorem lays_put (inside : offset + piece.size ≤ length) :
    Lays length (put offset piece) [(offset, piece)] := by
  intro buffer long
  have within : offset + piece.size ≤ buffer.size := Nat.le_trans inside long
  exact ⟨put_eq within, Bytes.size_splice within⟩

theorem lays_word {number : Nat} (inside : offset + width ≤ length) :
    Lays length (put offset (encode width number)) [(offset, encode width number)] :=
  lays_put (by rwa [size_encode])

theorem lays_clear (inside : offset + width ≤ length) :
    Lays length (clear offset width) [(offset, Bytes.zeros width)] :=
  lays_put (by rwa [Bytes.size_zeros])

/-- What two writings lay one after the other. -/
theorem Lays.bind (first : Lays length writing parts) (second : Lays length next more) :
    Lays length (writing >>= fun _ => next) (parts ++ more) := by
  intro buffer long
  obtain ⟨begun, size⟩ := first buffer long
  obtain ⟨ended, sizeToo⟩ := second (lay buffer parts) (by rwa [size])
  have joined : lay buffer (parts ++ more) = lay (lay buffer parts) more := List.foldl_append
  rw [joined]
  exact ⟨(ok_then begun).trans ended, sizeToo.trans size⟩

/-- Two pieces right behind each other make one. -/
theorem Lays.append {start : Nat} (first : Lays length writing [(offset, piece)])
    (second : Lays length next [(start, image)]) (adjacent : start = offset + piece.size)
    (inside : start + image.size ≤ length) :
    Lays length (writing >>= fun _ => next) [(offset, piece ++ image)] := by
  subst adjacent
  intro buffer long
  have room : offset + (piece.size + image.size) ≤ buffer.size := by omega
  obtain ⟨written, size⟩ := (first.bind second) buffer long
  have joined : lay buffer ([(offset, piece)] ++ [(offset + piece.size, image)]) =
      lay buffer [(offset, piece ++ image)] := Bytes.splice_append room
  rw [joined] at written size
  exact ⟨written, size⟩

/-- On a buffer that the image fills, the image is all that is left. -/
theorem Lays.whole (lays : Lays length writing [(0, image)]) (size : image.size = length)
    (buffer : ByteArray) (exact : buffer.size = length) : writing buffer = (.ok (), image) := by
  have filled : splice buffer 0 image = image := Bytes.splice_whole (size.trans exact.symm)
  exact (lays buffer (Nat.le_of_eq exact.symm)).1.trans (Prod.ext rfl filled)

/-- Parts that come to one image at the front of what they are laid into. -/
theorem Lays.atFront (lays : Lays length writing ((0, Bytes.zeros length) :: parts))
    (ascending : Ascending 0 length parts) :
    Lays length writing [(0, lay (Bytes.zeros length) parts)] := by
  intro buffer long
  obtain ⟨written, size⟩ := lays buffer long
  have blank : (Bytes.zeros length).size = length := Bytes.size_zeros _
  have joined : lay buffer ((0, Bytes.zeros length) :: parts) =
      splice buffer 0 (lay (Bytes.zeros length) parts) :=
    Bytes.lay_splice ascending (Nat.le_of_eq blank.symm) (by rwa [blank])
  rw [joined] at written size
  exact ⟨written, size⟩

/-- On a part of the buffer that a writing fills, only what it is filled with matters. -/
theorem lays_onPart (inside : offset + length ≤ width) (size : image.size = length)
    (fills : ∀ part : ByteArray, part.size = length → writing part = (.ok (), image)) :
    Lays width (onPart offset length writing) [(offset, image)] := by
  intro buffer long
  have within : offset + length ≤ buffer.size := Nat.le_trans inside long
  have filled := fills (slice buffer offset length) (Bytes.size_slice_of_le within)
  constructor
  · rw [onPart, if_pos within, filled]
    rfl
  · exact Bytes.size_splice (by rwa [size])

/-! ## Headers -/

theorem lays_padTo {text : String} {capacity : Nat} (fits : text.utf8ByteSize ≤ capacity) :
    Lays capacity (put 0 text.toUTF8 >>= fun _ =>
      clear text.utf8ByteSize (capacity - text.utf8ByteSize))
      [(0, Bytes.padTo capacity text.toUTF8)] := by
  have stored : text.toUTF8.size = text.utf8ByteSize := rfl
  have blank : (Bytes.zeros (capacity - text.toUTF8.size)).size =
      capacity - text.utf8ByteSize := Bytes.size_zeros _
  have chars : Lays capacity (put 0 text.toUTF8) [(0, text.toUTF8)] := lays_put (by omega)
  exact chars.append (lays_clear (by omega)) (Nat.zero_add _).symm (by omega)

theorem lays_textField (field : TextField) {text : String}
    (fits : text.utf8ByteSize ≤ field.capacity)
    (inside : field.offset + field.lengthWidth + field.capacity ≤ length) :
    Lays length (textField field text) [(field.offset, field.image text)] := by
  have size : (Bytes.padTo field.capacity text.toUTF8).size = field.capacity :=
    Bytes.size_padTo fits
  have number : Lays length (put field.offset (encode field.lengthWidth text.utf8ByteSize))
      [(field.offset, encode field.lengthWidth text.utf8ByteSize)] := lays_word (by omega)
  have chars := lays_onPart inside size ((lays_padTo fits).whole size)
  have pieces := number.append chars (by rw [size_encode]) (by omega)
  intro buffer long
  obtain ⟨written, kept⟩ := pieces buffer long
  exact ⟨(ok_then (check_ok (TextField.check_eq_ok_iff.2 fits))).trans written, kept⟩

theorem lays_flag {value : Bool} (inside : offset + 1 ≤ length) :
    Lays length (put offset (Header.flag value)) [(offset, Header.flag value)] :=
  lays_word inside

theorem lays_codeByte [Coded α] {value : α} (inside : offset + 1 ≤ length) :
    Lays length (put offset (Header.codeByte value)) [(offset, Header.codeByte value)] :=
  lays_word inside

/-- The pieces of a header are its parts, in their order. -/
theorem lays_headerParts {header : Header} (fits : header.blob.Fits) :
    Lays Layout.jobStatusAt (headerParts header) [(0, header.image)] := by
  have jobId : Lays Layout.jobStatusAt (put Layout.jobIdAt header.jobId.toBytes.toByteArray)
      [(Layout.jobIdAt, header.jobId.toBytes.toByteArray)] :=
    lays_put (by rw [header.jobId.size_toBytes]; decide)
  have pieces : Lays Layout.jobStatusAt (headerParts header)
      ((0, Bytes.zeros Layout.jobStatusAt) :: header.parts) :=
    (lays_clear (by decide)).bind <| (lays_word (by decide)).bind <| jobId.bind <|
    (lays_word (by decide)).bind <| (lays_flag (by decide)).bind <|
    (lays_codeByte (by decide)).bind <| (lays_word (by decide)).bind <|
    (lays_codeByte (by decide)).bind <| (lays_word (by decide)).bind <|
    (lays_codeByte (by decide)).bind <| (lays_flag (by decide)).bind <|
    (lays_textField .contentType fits.contentType (by decide)).bind <|
    (lays_textField .contentEncoding fits.contentEncoding (by decide)).bind <|
    (lays_textField .blockBlobTier fits.blockBlobTier (by decide)).bind <|
    (lays_textField .pageBlobTier fits.pageBlobTier (by decide)).bind <|
    (lays_textField .metadata fits.metadata (by decide)).bind <|
    (lays_word (by decide)).bind <| lays_flag (by decide)
  exact pieces.atFront (Header.parts_ascending fits)

theorem header_short {header : Header} (short : buffer.size < Layout.headerSize) :
    InPlace.header header buffer =
      (.error (.fault (.truncated buffer.size Layout.headerSize)), buffer) := by
  have measured : size buffer = (.ok buffer.size, buffer) := rfl
  rw [InPlace.header, ok_then measured, if_pos short]
  rfl

theorem header_refused {header : Header} {fault : Fault}
    (long : Layout.headerSize ≤ buffer.size) (refused : header.blob.validate = .error fault) :
    InPlace.header header buffer = (.error (.fault fault), buffer) := by
  have measured : size buffer = (.ok buffer.size, buffer) := rfl
  rw [InPlace.header, ok_then measured, if_neg (Nat.not_lt.2 long)]
  exact error_then (check_error refused)

theorem header_eq {header : Header} (long : Layout.headerSize ≤ buffer.size)
    (fits : header.blob.Fits) :
    InPlace.header header buffer = (.ok (), splice buffer 0 header.image) := by
  have measured : size buffer = (.ok buffer.size, buffer) := rfl
  have valid : check header.blob.validate buffer = (.ok (), buffer) :=
    check_ok (BlobSettings.validate_eq_ok_iff.2 fits)
  rw [InPlace.header, ok_then measured, if_neg (Nat.not_lt.2 long), ok_then valid]
  exact (lays_headerParts fits buffer (Nat.le_trans (by decide) long)).1

/-- A writing in place has the outcome of one that gives a new buffer: the new buffer is left,
or the old one if there is none. -/
def Matches (written : Except Fault ByteArray) (buffer : ByteArray)
    (outcome : Except Stop Unit × ByteArray) : Prop :=
  match written with
  | .ok after => outcome = (.ok (), after)
  | .error fault => outcome = (.error (.fault fault), buffer)

theorem header_matches (header : Header) (buffer : ByteArray) :
    Matches (header.writeTo buffer) buffer (InPlace.header header buffer) := by
  rw [Header.writeTo]
  by_cases short : buffer.size < Layout.headerSize
  · rw [if_pos short]
    exact header_short short
  · have long := Nat.not_lt.1 short
    rw [if_neg short]
    cases checked : header.blob.validate with
    | error fault => exact header_refused long checked
    | ok _ => exact header_eq long (BlobSettings.validate_eq_ok_iff.1 checked)

/-- What was laid over the front of a buffer is read from every piece that holds it. -/
theorem read_front {header : Header} (fits : header.blob.Fits)
    (front : slice buffer 0 Layout.jobStatusAt = header.image)
    (long : Layout.jobStatusAt ≤ length) (within : length ≤ buffer.size) :
    Header.read (slice buffer 0 length) = .ok header := by
  have size : (slice buffer 0 length).size = length := Bytes.size_slice_of_le (by omega)
  have inside : 0 + Layout.jobStatusAt ≤ length := by omega
  have same : slice (slice buffer 0 length) 0 Layout.jobStatusAt = header.image :=
    (Bytes.slice_slice inside).trans front
  rw [← Header.read_slice (by rwa [size]), same]
  exact Header.read_of_carried fits (Nat.le_of_eq (Header.size_image fits).symm)
    (Header.carried_image fits)

/-- A header is written in whole or not at all, over whatever the front of the buffer held, and
it is read back from every piece that reaches to the job status word. -/
theorem header_exact (header : Header) (buffer : ByteArray) :
    (buffer.size < 1600 →
      InPlace.header header buffer = (.error (.fault (.truncated buffer.size 1600)), buffer)) ∧
    (1600 ≤ buffer.size → ∀ fault, header.blob.oversized.head? = some fault →
      InPlace.header header buffer = (.error (.fault fault), buffer)) ∧
    (1600 ≤ buffer.size → header.blob.oversized = [] → ∃ after,
      InPlace.header header buffer = (.ok (), after) ∧ after.size = buffer.size ∧
      slice after 0 1596 = header.image ∧
      (∀ offset length, 1596 ≤ offset → slice after offset length = slice buffer offset length) ∧
      ∀ length, 1596 ≤ length → length ≤ buffer.size →
        Header.read (slice after 0 length) = .ok header) ∧
    Matches (header.writeTo buffer) buffer (InPlace.header header buffer) := by
  refine ⟨header_short, fun long fault first => ?_, fun long none => ?_,
    header_matches header buffer⟩
  · refine header_refused long ?_
    rw [BlobSettings.validate_eq_firstOf]
    exact firstOf_eq_error_iff.2 first
  · have fits := BlobSettings.fits_iff.2 none
    have size : header.image.size = 1596 := Header.size_image fits
    have within : 0 + header.image.size ≤ buffer.size := by omega
    have kept := Bytes.size_splice within
    have front : slice (splice buffer 0 header.image) 0 1596 = header.image := by
      have laid := Bytes.slice_splice_self within
      rwa [size] at laid
    refine ⟨_, header_eq long fits, kept, front, fun offset length behind => ?_,
      fun length reaches inside => ?_⟩
    · exact Bytes.slice_splice_of_ge within (by omega)
    · exact read_front fits front reaches (by omega)

/-- A header with a tier of five two-byte characters, which fills its field, over bytes of
another plan. -/
theorem header_exact_fullTier :
    let header : Header := { blob := { blockBlobTier := "ééééé", pageBlobTier := "P10" } }
    let buffer : ByteArray := ⟨Array.replicate 1604 0xAA⟩
    ∃ after, InPlace.header header buffer = (.ok (), after) ∧
      Header.read (slice after 0 1596) = .ok header ∧
      slice after 1596 8 = slice buffer 1596 8 := by
  intro header buffer
  have size : buffer.size = 1604 := Array.size_replicate
  obtain ⟨after, done, _, _, behind, read⟩ :=
    (header_exact header buffer).2.2.1 (by omega) (by decide)
  exact ⟨after, done, read 1596 (Nat.le_refl _) (by omega), behind 1596 8 (Nat.le_refl _)⟩

end InPlace

end TransferLedger.Plan
