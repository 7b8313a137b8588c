import TransferLedger.Plan.Piecewise
import TransferLedger.Proofs.InPlace
import TransferLedger.Proofs.Strings

/-! Which bytes read as a header, and what is left of them when it is written again.

The checks of a header are a list of faults in the order of the checks: the first fault
that the bytes have is the one that is told.  A header that was read fixes all of its bytes
but the flags, which may hold more than one, the bytes that no field uses, and those behind
the texts.  The image of the header has zeros there.
-/

namespace TransferLedger

namespace JobId

theorem toBytes_ofByteArray {bytes : ByteArray} (size : bytes.size = 16) :
    (ofByteArray bytes).toBytes.toByteArray = bytes := by
  have stored : bytes.data.size = 16 := size
  apply ByteArray.ext
  rw [List.data_toByteArray, toBytes, ofByteArray]
  apply Array.ext
  · simp [stored]
  · intro place _ inside
    have here : place < bytes.size := inside
    simp [Array.getD, here]

end JobId

namespace Bytes

theorem slice_zeros {offset length count : Nat} (within : offset + length ≤ count) :
    slice (zeros count) offset length = zeros length := by
  apply ByteArray.ext_getElem
  · rw [size_slice_of_le (by rwa [size_zeros]), size_zeros]
  · intro place _ _
    simp [slice, zeros, ByteArray.getElem_eq_getElem_data]

end Bytes

namespace Plan

open Bytes (slice slice_slice size_slice_of_le zeros)
open Bytes.LittleEndian (encode decode bound size_encode)
open Header (word)

variable {α β : Type} {bytes : ByteArray} {offset length width limit : Nat}

/-! ## Bytes that are looked at -/

namespace Piecewise

theorem piece_eq (inside : offset + length ≤ Layout.jobStatusAt)
    (enough : Layout.jobStatusAt ≤ limit) (long : Layout.jobStatusAt ≤ bytes.size) :
    piece limit bytes offset length = .ok (slice bytes offset length) :=
  if_pos (by omega)

theorem number_eq (inside : offset + width ≤ Layout.jobStatusAt)
    (enough : Layout.jobStatusAt ≤ limit) (long : Layout.jobStatusAt ≤ bytes.size) :
    number limit bytes offset width = .ok (word bytes offset width) := by
  rw [number, piece_eq inside enough long, ok_bind, word]

theorem uint32_eq (inside : offset + 4 ≤ Layout.jobStatusAt)
    (enough : Layout.jobStatusAt ≤ limit) (long : Layout.jobStatusAt ≤ bytes.size) :
    uint32 limit bytes offset = .ok (UInt32.ofNat (word bytes offset 4)) := by
  rw [uint32, number_eq inside enough long, ok_bind]

theorem flag_eq (inside : offset + 1 ≤ Layout.jobStatusAt)
    (enough : Layout.jobStatusAt ≤ limit) (long : Layout.jobStatusAt ≤ bytes.size) :
    flag limit bytes offset = .ok (word bytes offset 1 != 0) := by
  rw [flag, number_eq inside enough long, ok_bind]

theorem coded_eq [Coded α] (inside : offset + 1 ≤ Layout.jobStatusAt)
    (enough : Layout.jobStatusAt ≤ limit) (long : Layout.jobStatusAt ≤ bytes.size) :
    (coded limit bytes offset : Except Stop α) =
      (known (word bytes offset 1)).mapError Stop.fault := by
  rw [coded, number_eq inside enough long, ok_bind]

theorem textField_eq (field : TextField)
    (inside : field.offset + field.lengthWidth + field.capacity ≤ Layout.jobStatusAt)
    (enough : Layout.jobStatusAt ≤ limit) (long : Layout.jobStatusAt ≤ bytes.size) :
    textField limit bytes field = (field.read bytes).mapError Stop.fault := by
  rw [textField, number_eq (by omega) enough long, ok_bind, TextField.read, mapError_bind, word]
  generalize decode (slice bytes field.offset field.lengthWidth) = length
  by_cases excessive : field.capacity < length
  · rw [TextField.checkLength, if_pos excessive]
    rfl
  · rw [TextField.checkLength, if_neg excessive, mapError_ok, ok_bind, ok_bind,
      piece_eq (by omega) enough long, ok_bind]

/-- A limit at the job status word, or behind it, changes nothing. -/
theorem header_eq (bytes : ByteArray) (enough : Layout.jobStatusAt ≤ limit) :
    header limit bytes = (Header.read bytes).mapError Stop.fault := by
  unfold header Header.read
  by_cases short : bytes.size < Layout.jobStatusAt
  · rw [if_pos short, if_pos short, mapError_error]
  · have long := Nat.not_lt.1 short
    rw [if_neg short, if_neg short, number_eq (by decide) enough long, ok_bind]
    by_cases version : word bytes Layout.versionAt 4 ≠ Layout.schemaVersion
    · rw [if_pos version, if_pos version, mapError_error]
    · rw [if_neg version, if_neg version]
      simp (disch := first | assumption | decide) only [fields, piece_eq, uint32_eq, flag_eq,
        coded_eq, textField_eq, ok_bind, mapError_bind, mapError_ok]

end Piecewise

/-! ## Checks -/

/-- The fault of a check, unless the check passes. -/
def failing (passes : Prop) [Decidable passes] (fault : Fault) : List Fault :=
  if passes then [] else [fault]

theorem failing_eq_nil_iff {passes : Prop} [Decidable passes] {fault : Fault} :
    failing passes fault = [] ↔ passes := by
  rw [failing]
  split
  · simpa
  · simpa

/-- An operation fails with the first of the faults, and only if there is one. -/
def Checks (result : Except Fault α) (faults : List Fault) : Prop :=
  ∀ fault, result = .error fault ↔ faults.head? = some fault

theorem checks_ok (value : α) : Checks (.ok value) [] :=
  fun _ => ⟨nofun, nofun⟩

theorem checks_error (fault : Fault) (later : List Fault) :
    Checks (.error fault : Except Fault α) (fault :: later) :=
  fun found => by simp

theorem Checks.exists_ok_iff {result : Except Fault α} {faults : List Fault}
    (checks : Checks result faults) : (∃ value, result = .ok value) ↔ faults = [] := by
  cases result with
  | ok value =>
      cases faults with
      | nil => simp
      | cons fault later => cases (checks fault).2 rfl
  | error fault =>
      have first := (checks fault).1 rfl
      constructor
      · rintro ⟨_, ⟨⟩⟩
      · rintro rfl
        cases first

theorem Checks.bind {result : Except Fault α} {next : α → Except Fault β}
    {faults more : List Fault} (checks : Checks result faults)
    (later : ∀ value, result = .ok value → Checks (next value) more) :
    Checks (result >>= next) (faults ++ more) := by
  cases faults with
  | nil =>
      obtain ⟨value, passed⟩ := checks.exists_ok_iff.2 rfl
      rw [passed, ok_bind]
      exact later value passed
  | cons fault others =>
      rw [(checks fault).2 rfl, error_bind]
      exact checks_error fault _

theorem Checks.guard {refused passes : Prop} [Decidable refused] [Decidable passes]
    {fault : Fault} {rest : Except Fault α} {more : List Fault} (opposite : passes ↔ ¬ refused)
    (later : passes → Checks rest more) :
    Checks (if refused then .error fault else rest) (failing passes fault ++ more) := by
  by_cases passed : passes
  · rw [failing, if_pos passed, if_neg (opposite.1 passed)]
    exact later passed
  · have bad : refused := Decidable.not_not.1 fun good => passed (opposite.2 good)
    rw [failing, if_neg passed, if_pos bad]
    exact checks_error fault more

theorem known_unknown [Coded α] {raw : Int} (none : ∀ value : α, Coded.code value ≠ raw) :
    (known raw : Except Fault α) = .error (.invalidField { kind := Coded.kind α, raw }) := by
  have absent : ((Coded.values : List α).find? fun value => Coded.code value == raw) = .none :=
    List.find?_eq_none.2 fun value _ same => none value (by simpa using same)
  rw [known, Coded.ofCode, absent, mapError_error]

/-- Codes that are the numbers up to a greatest one. -/
theorem checks_known [Coded α] (raw greatest : Nat)
    (bounded : ∀ value : α, 0 ≤ Coded.code value ∧ Coded.code value ≤ greatest)
    (onto : ∀ raw < greatest + 1, ∃ value ∈ (Coded.values : List α), Coded.code value = raw) :
    Checks (known raw : Except Fault α)
      (failing (raw ≤ greatest) (.invalidField { kind := Coded.kind α, raw })) := by
  by_cases small : raw ≤ greatest
  · obtain ⟨value, _, stored⟩ := onto raw (by omega)
    rw [failing, if_pos small, known_code stored.symm]
    exact checks_ok value
  · have none (value : α) : Coded.code value ≠ raw := by
      have below := bounded value
      omega
    rw [failing, if_neg small, known_unknown none]
    exact checks_error _ _

theorem checks_text (what : String) (bytes : ByteArray) :
    Checks (text what bytes)
      (failing bytes.IsValidUTF8 (.invalidUtf8 what (Text.Utf8.faultOf bytes))) := by
  intro fault
  rw [text_eq_error_iff, failing]
  by_cases valid : bytes.IsValidUTF8
  · simp [valid]
  · simp [valid, eq_comm]

namespace TextField

/-- The texts of a header in the order in which they are checked. -/
def all : List TextField :=
  [contentType, contentEncoding, blockBlobTier, pageBlobTier, metadata]

def storedLength (field : TextField) (bytes : ByteArray) : Nat :=
  word bytes field.offset field.lengthWidth

def stored (field : TextField) (bytes : ByteArray) : ByteArray :=
  slice bytes (field.offset + field.lengthWidth) (field.storedLength bytes)

/-- The room that the stored text leaves in its field. -/
def rest (field : TextField) (bytes : ByteArray) : ByteArray :=
  slice bytes (field.offset + field.lengthWidth + field.storedLength bytes)
    (field.capacity - field.storedLength bytes)

def defects (field : TextField) (bytes : ByteArray) : List Fault :=
  failing (field.storedLength bytes ≤ field.capacity)
      (.fieldTooLong field.name (field.storedLength bytes) field.capacity) ++
    failing (field.stored bytes).IsValidUTF8
      (.invalidUtf8 field.name (Text.Utf8.faultOf (field.stored bytes)))

theorem checks_length (field : TextField) (length : Nat) :
    Checks (field.checkLength length)
      (failing (length ≤ field.capacity) (.fieldTooLong field.name length field.capacity)) := by
  by_cases excessive : field.capacity < length
  · rw [checkLength, if_pos excessive, failing, if_neg (Nat.not_le.2 excessive)]
    exact checks_error _ _
  · rw [checkLength, if_neg excessive, failing, if_pos (Nat.not_lt.1 excessive)]
    exact checks_ok ()

theorem checks_read (field : TextField) (bytes : ByteArray) :
    Checks (field.read bytes) (field.defects bytes) :=
  (field.checks_length (field.storedLength bytes)).bind fun _ _ => checks_text field.name _

end TextField

namespace Header

/-- Everything that keeps bytes from being a header, in the order in which it is checked. -/
def defects (bytes : ByteArray) : List Fault :=
  failing (1596 ≤ bytes.size) (.truncated bytes.size 1596) ++
    (failing (word bytes 0 4 = 0) (.unsupportedVersion (word bytes 0 4) 0) ++
      (failing (word bytes 25 1 ≤ 1) (.invalidField ⟨"priority", word bytes 25 1⟩) ++
        (failing (word bytes 32 1 ≤ 7) (.invalidField ⟨"from-to", word bytes 32 1⟩) ++
          (failing (word bytes 40 1 ≤ 6) (.invalidField ⟨"log level", word bytes 40 1⟩) ++
            TextField.all.flatMap fun field => field.defects bytes))))

/-- What bytes have to hold to be read as a header. -/
structure Readable (bytes : ByteArray) : Prop where
  long : 1596 ≤ bytes.size
  version : word bytes 0 4 = 0
  priority : word bytes 25 1 ≤ 1
  route : word bytes 32 1 ≤ 7
  logLevel : word bytes 40 1 ≤ 6
  texts : ∀ field ∈ TextField.all,
    field.storedLength bytes ≤ field.capacity ∧ (field.stored bytes).IsValidUTF8

theorem defects_eq_nil_iff : defects bytes = [] ↔ Readable bytes := by
  simp only [defects, List.append_eq_nil_iff, failing_eq_nil_iff, List.flatMap_eq_nil_iff,
    TextField.defects]
  constructor
  · rintro ⟨long, version, priority, route, logLevel, texts⟩
    exact ⟨long, version, priority, route, logLevel, texts⟩
  · rintro ⟨long, version, priority, route, logLevel, texts⟩
    exact ⟨long, version, priority, route, logLevel, texts⟩

theorem checks_read (bytes : ByteArray) : Checks (read bytes) (defects bytes) :=
  Checks.guard Nat.not_lt.symm fun _ => Checks.guard Decidable.not_not.symm fun _ =>
    (checks_known _ 1 (fun value => by cases value <;> decide) (by decide)).bind fun _ _ =>
    (checks_known _ 7 (fun value => by cases value <;> decide) (by decide)).bind fun _ _ =>
    (checks_known _ 6 (fun value => by cases value <;> decide) (by decide)).bind fun _ _ =>
    (TextField.contentType.checks_read bytes).bind fun _ _ =>
    (TextField.contentEncoding.checks_read bytes).bind fun _ _ =>
    (TextField.blockBlobTier.checks_read bytes).bind fun _ _ =>
    (TextField.pageBlobTier.checks_read bytes).bind fun _ _ =>
    (TextField.metadata.checks_read bytes).bind fun _ _ => checks_ok _

/-! ## Images of what was read -/

theorem slice_eq_encode_iff {number : Nat} (within : offset + width ≤ bytes.size)
    (fits : number < bound width) :
    slice bytes offset width = encode width number ↔ word bytes offset width = number := by
  constructor
  · intro stored
    exact word_of_slice stored fits
  · rintro rfl
    have exact := Bytes.LittleEndian.encode_decode (slice bytes offset width)
    rw [size_slice_of_le within] at exact
    exact exact.symm

theorem word_lt (within : offset + width ≤ bytes.size) : word bytes offset width < bound width := by
  have below := Bytes.LittleEndian.decode_lt (slice bytes offset width)
  rwa [size_slice_of_le within] at below

theorem slice_uint32 {value : UInt32} (within : offset + 4 ≤ bytes.size)
    (read : value = UInt32.ofNat (word bytes offset 4)) :
    slice bytes offset (encode 4 value.toNat).size = encode 4 value.toNat := by
  have below : word bytes offset 4 < UInt32.size := word_lt within
  rw [size_encode, read, UInt32.toNat_ofNat_of_lt' below]
  exact (slice_eq_encode_iff within (word_lt within)).2 rfl

/-- Every byte but zero reads as a set flag, and a set flag is written as one. -/
theorem slice_flag_iff {value : Bool} (within : offset + 1 ≤ bytes.size)
    (read : value = (word bytes offset 1 != 0)) :
    slice bytes offset (flag value).size = flag value ↔ word bytes offset 1 ≤ 1 := by
  have small : value.toNat < bound 1 := by cases value <;> decide
  rw [flag, size_encode, slice_eq_encode_iff within small]
  cases value with
  | false =>
      have zero : word bytes offset 1 = 0 := by simpa using read
      simp [zero]
  | true =>
      have positive : word bytes offset 1 ≠ 0 := by simpa using read
      simp only [Bool.toNat_true]
      omega

theorem slice_codeByte [Coded α] {value : α} (within : offset + 1 ≤ bytes.size)
    (read : known (word bytes offset 1) = .ok value) :
    slice bytes offset (codeByte value).size = codeByte value := by
  have stored : Coded.code value = word bytes offset 1 :=
    Coded.code_of_ofCode (mapError_eq_ok_iff.1 read)
  rw [size_codeByte, codeByte, stored, Int.toNat_natCast]
  exact (slice_eq_encode_iff within (word_lt within)).2 rfl

end Header

namespace TextField

variable {field : TextField} {value : String}

theorem read_eq_ok_iff :
    field.read bytes = .ok value ↔
      field.storedLength bytes ≤ field.capacity ∧ value.toUTF8 = field.stored bytes := by
  have checked : field.checkLength (field.storedLength bytes) = .ok () ↔
      field.storedLength bytes ≤ field.capacity := by
    rw [checkLength]
    split
    · simp_all
    · simp_all
  change (field.checkLength (field.storedLength bytes) >>= fun _ =>
    text field.name (field.stored bytes)) = .ok value ↔ _
  rw [check_bind_eq_ok_iff, checked, text_eq_ok_iff]

theorem utf8ByteSize_of_read (read : field.read bytes = .ok value)
    (within : field.offset + field.lengthWidth + field.capacity ≤ bytes.size) :
    value.utf8ByteSize = field.storedLength bytes := by
  obtain ⟨fits, same⟩ := read_eq_ok_iff.1 read
  have size : value.toUTF8.size = field.storedLength bytes := by
    rw [same, stored, size_slice_of_le (by omega)]
  exact size

/-- A field holds the image of the text that it reads as where the text leaves zeros. -/
theorem slice_image_iff (read : field.read bytes = .ok value)
    (within : field.offset + field.lengthWidth + field.capacity ≤ bytes.size) :
    slice bytes field.offset (field.image value).size = field.image value ↔
      field.rest bytes = zeros (field.capacity - field.storedLength bytes) := by
  have fits := (read_eq_ok_iff.1 read).1
  have same := (read_eq_ok_iff.1 read).2
  have length := utf8ByteSize_of_read read within
  have lengthWord : slice bytes field.offset field.lengthWidth =
      encode field.lengthWidth (field.storedLength bytes) :=
    (Header.slice_eq_encode_iff (by omega) (Header.word_lt (by omega))).2 rfl
  have chars : slice bytes (field.offset + field.lengthWidth) (field.storedLength bytes) =
      value.toUTF8 := same.symm
  have size : value.toUTF8.size = field.storedLength bytes := length
  have cut : field.lengthWidth + field.capacity = field.lengthWidth +
      (field.storedLength bytes + (field.capacity - field.storedLength bytes)) := by omega
  rw [size_image field (by omega), image, Bytes.padTo, length, size, cut, Bytes.slice_add,
    lengthWord, ByteArray.append_right_inj, Bytes.slice_add, chars, ByteArray.append_right_inj,
    rest]

theorem within_of_mem_all (long : Layout.jobStatusAt ≤ bytes.size) (member : field ∈ all) :
    field.offset + field.lengthWidth + field.capacity ≤ bytes.size := by
  have inside : ∀ field ∈ all,
      field.offset + field.lengthWidth + field.capacity ≤ Layout.jobStatusAt := by
    simp only [all, List.forall_mem_cons]
    decide
  exact Nat.le_trans (inside field member) long

end TextField

namespace Header

variable {header : Header}

/-- Bytes that have nothing where the image of a header has zeros, and one at most in a flag. -/
structure Canonical (bytes : ByteArray) : Prop where
  flags : ∀ offset ∈ [24, 44, 1592], word bytes offset 1 ≤ 1
  padding : ∀ range ∈ [(26, 2), (33, 3), (41, 3), (45, 1), (1586, 2), (1593, 3)],
    slice bytes range.1 range.2 = zeros range.2
  rests : ∀ field ∈ TextField.all,
    field.rest bytes = zeros (field.capacity - field.storedLength bytes)

/-- What each part of a header that was read comes from. -/
structure ReadFrom (bytes : ByteArray) (header : Header) : Prop where
  long : Layout.jobStatusAt ≤ bytes.size
  version : word bytes Layout.versionAt 4 = Layout.schemaVersion
  jobId : header.jobId = JobId.ofByteArray (slice bytes Layout.jobIdAt 16)
  partNumber : header.partNumber.value = UInt32.ofNat (word bytes Layout.partNumberAt 4)
  isFinal : header.isFinal = (word bytes Layout.isFinalAt 1 != 0)
  priority : known (word bytes Layout.priorityAt 1) = .ok header.priority
  lifetime : header.lifetime = UInt32.ofNat (word bytes Layout.lifetimeAt 4)
  route : known (word bytes Layout.routeAt 1) = .ok header.route
  transferCount : header.transferCount = UInt32.ofNat (word bytes Layout.transferCountAt 4)
  logLevel : known (word bytes Layout.logLevelAt 1) = .ok header.logLevel
  keepsContentType : header.blob.keepsContentType = (word bytes Layout.keepsContentTypeAt 1 != 0)
  contentType : TextField.contentType.read bytes = .ok header.blob.contentType
  contentEncoding : TextField.contentEncoding.read bytes = .ok header.blob.contentEncoding
  blockBlobTier : TextField.blockBlobTier.read bytes = .ok header.blob.blockBlobTier
  pageBlobTier : TextField.pageBlobTier.read bytes = .ok header.blob.pageBlobTier
  metadata : TextField.metadata.read bytes = .ok header.blob.metadata
  blockSize : header.blob.blockSize = UInt32.ofNat (word bytes Layout.blockSizeAt 4)
  keepsModifiedTime : header.localFile.keepsModifiedTime =
    (word bytes Layout.keepsModifiedTimeAt 1 != 0)

theorem readFrom_of_read (read : Header.read bytes = .ok header) : ReadFrom bytes header := by
  have readable := defects_eq_nil_iff.1 ((checks_read bytes).exists_ok_iff.1 ⟨header, read⟩)
  have long : Layout.jobStatusAt ≤ bytes.size := readable.long
  have version : word bytes Layout.versionAt 4 = Layout.schemaVersion := readable.version
  rw [Header.read, if_neg (Nat.not_lt.2 long)] at read
  dsimp only at read
  rw [if_neg (Decidable.not_not.2 version)] at read
  obtain ⟨_, priority, read⟩ := bind_eq_ok_iff.1 read
  obtain ⟨_, route, read⟩ := bind_eq_ok_iff.1 read
  obtain ⟨_, logLevel, read⟩ := bind_eq_ok_iff.1 read
  obtain ⟨_, contentType, read⟩ := bind_eq_ok_iff.1 read
  obtain ⟨_, contentEncoding, read⟩ := bind_eq_ok_iff.1 read
  obtain ⟨_, blockBlobTier, read⟩ := bind_eq_ok_iff.1 read
  obtain ⟨_, pageBlobTier, read⟩ := bind_eq_ok_iff.1 read
  obtain ⟨_, metadata, read⟩ := bind_eq_ok_iff.1 read
  rw [Except.ok.injEq] at read
  subst read
  constructor
  case long => exact long
  case version => exact version
  case priority => exact priority
  case route => exact route
  case logLevel => exact logLevel
  case contentType => exact contentType
  case contentEncoding => exact contentEncoding
  case blockBlobTier => exact blockBlobTier
  case pageBlobTier => exact pageBlobTier
  case metadata => exact metadata
  all_goals dsimp only

namespace ReadFrom

theorem fits (read : ReadFrom bytes header) : header.blob.Fits := by
  have short {field : TextField} {value : String} (member : field ∈ TextField.all)
      (taken : field.read bytes = .ok value) : value.utf8ByteSize ≤ field.capacity := by
    have within := TextField.within_of_mem_all read.long member
    rw [TextField.utf8ByteSize_of_read taken within]
    exact (TextField.read_eq_ok_iff.1 taken).1
  exact {
    contentType := short (by simp [TextField.all]) read.contentType
    contentEncoding := short (by simp [TextField.all]) read.contentEncoding
    blockBlobTier := short (by simp [TextField.all]) read.blockBlobTier
    pageBlobTier := short (by simp [TextField.all]) read.pageBlobTier
    metadata := short (by simp [TextField.all]) read.metadata }

/-- Only flags and the rooms of texts can keep bytes from holding what was read from them. -/
theorem carried_iff (read : ReadFrom bytes header) :
    header.Carried bytes ↔ (∀ offset ∈ [24, 44, 1592], word bytes offset 1 ≤ 1) ∧
      ∀ field ∈ TextField.all,
        field.rest bytes = zeros (field.capacity - field.storedLength bytes) := by
  have long := read.long
  have inside {finish : Nat} (front : finish ≤ Layout.jobStatusAt) : finish ≤ bytes.size :=
    Nat.le_trans front long
  have version : slice bytes Layout.versionAt (encode 4 Layout.schemaVersion).size =
      encode 4 Layout.schemaVersion := by
    rw [size_encode]
    exact (slice_eq_encode_iff (inside (by decide)) (by decide)).2 read.version
  have jobId : slice bytes Layout.jobIdAt header.jobId.toBytes.toByteArray.size =
      header.jobId.toBytes.toByteArray := by
    rw [JobId.size_toBytes, read.jobId,
      JobId.toBytes_ofByteArray (size_slice_of_le (inside (by decide)))]
  have chars {field : TextField} {value : String} (member : field ∈ TextField.all)
      (taken : field.read bytes = .ok value) :
      slice bytes field.offset (field.image value).size = field.image value ↔
        field.rest bytes = zeros (field.capacity - field.storedLength bytes) :=
    TextField.slice_image_iff taken (TextField.within_of_mem_all long member)
  have partNumber := slice_uint32 (inside (by decide)) read.partNumber
  have isFinal := slice_flag_iff (inside (by decide)) read.isFinal
  have priority := slice_codeByte (inside (by decide)) read.priority
  have lifetime := slice_uint32 (inside (by decide)) read.lifetime
  have route := slice_codeByte (inside (by decide)) read.route
  have transferCount := slice_uint32 (inside (by decide)) read.transferCount
  have logLevel := slice_codeByte (inside (by decide)) read.logLevel
  have keepsContentType := slice_flag_iff (inside (by decide)) read.keepsContentType
  have contentType := chars (by simp [TextField.all]) read.contentType
  have contentEncoding := chars (by simp [TextField.all]) read.contentEncoding
  have blockBlobTier := chars (by simp [TextField.all]) read.blockBlobTier
  have pageBlobTier := chars (by simp [TextField.all]) read.pageBlobTier
  have metadata := chars (by simp [TextField.all]) read.metadata
  have blockSize := slice_uint32 (inside (by decide)) read.blockSize
  have keepsModifiedTime := slice_flag_iff (inside (by decide)) read.keepsModifiedTime
  simp only [Carried, parts, TextField.all, List.forall_mem_cons]
  constructor
  · rintro ⟨-, -, -, first, -, -, -, -, -, second, typeHeld, encodingHeld, blockTierHeld,
      pageTierHeld, metadataHeld, -, third, -⟩
    exact ⟨⟨isFinal.1 first, keepsContentType.1 second, keepsModifiedTime.1 third,
        List.forall_mem_nil _⟩,
      contentType.1 typeHeld, contentEncoding.1 encodingHeld, blockBlobTier.1 blockTierHeld,
      pageBlobTier.1 pageTierHeld, metadata.1 metadataHeld, List.forall_mem_nil _⟩
  · rintro ⟨⟨first, second, third, -⟩, typeRest, encodingRest, blockTierRest, pageTierRest,
      metadataRest, -⟩
    exact ⟨version, jobId, partNumber, isFinal.2 first, priority, lifetime, route, transferCount,
      logLevel, keepsContentType.2 second, contentType.2 typeRest, contentEncoding.2 encodingRest,
      blockBlobTier.2 blockTierRest, pageBlobTier.2 pageTierRest, metadata.2 metadataRest,
      blockSize, keepsModifiedTime.2 third, List.forall_mem_nil _⟩

/-- The bytes that no part of a header uses. -/
theorem gaps_parts (fits : header.blob.Fits) :
    Bytes.gaps Layout.jobStatusAt 0 header.parts =
      [(26, 2), (33, 3), (41, 3), (45, 1), (1586, 2), (1593, 3)] := by
  have contentType := TextField.contentType.size_image fits.contentType
  have contentEncoding := TextField.contentEncoding.size_image fits.contentEncoding
  have blockBlobTier := TextField.blockBlobTier.size_image fits.blockBlobTier
  have pageBlobTier := TextField.pageBlobTier.size_image fits.pageBlobTier
  have metadata := TextField.metadata.size_image fits.metadata
  simp only [parts, Bytes.gaps, flag, size_encode, size_codeByte, JobId.size_toBytes,
    contentType, contentEncoding, blockBlobTier, pageBlobTier, metadata]
  decide

theorem image_eq_iff (read : ReadFrom bytes header) :
    header.image = slice bytes 0 Layout.jobStatusAt ↔ Canonical bytes := by
  have blank : (zeros Layout.jobStatusAt).size = Layout.jobStatusAt := Bytes.size_zeros _
  have whole : slice header.image 0 Layout.jobStatusAt = header.image := by
    rw [← size_image read.fits, Bytes.slice_all]
  have agree : slice bytes 0 (Layout.jobStatusAt - 0) =
      slice header.image 0 (Layout.jobStatusAt - 0) ↔ header.Carried bytes ∧ _ :=
    Bytes.slice_lay_eq_iff (parts_ascending read.fits) (Nat.le_of_eq blank.symm)
  have inside : ∀ range ∈ [(26, 2), (33, 3), (41, 3), (45, 1), (1586, 2), (1593, 3)],
      range.1 + range.2 ≤ Layout.jobStatusAt := by decide
  rw [Nat.sub_zero, whole, gaps_parts read.fits, read.carried_iff] at agree
  rw [eq_comm, agree]
  constructor
  · rintro ⟨⟨flags, rests⟩, free⟩
    exact ⟨flags, fun range member =>
      (free range member).trans (Bytes.slice_zeros (inside range member)), rests⟩
  · rintro ⟨flags, padding, rests⟩
    exact ⟨⟨flags, rests⟩, fun range member =>
      (padding range member).trans (Bytes.slice_zeros (inside range member)).symm⟩

end ReadFrom

/-- The first check that bytes do not pass decides how they are refused, and bytes that pass
all of them are read; nothing behind the job status word is looked at.  A header that was read
can be written to any buffer that is long enough and is read back from it, and what is written
are the bytes that it was read from where these are canonical. -/
theorem read_exact (bytes : ByteArray) :
    (∀ fault, read bytes = .error fault ↔ (defects bytes).head? = some fault) ∧
    ((∃ header, read bytes = .ok header) ↔ Readable bytes) ∧
    (∀ limit, 1596 ≤ limit →
      Piecewise.header limit bytes = (read bytes).mapError Piecewise.Stop.fault) ∧
    ∀ header, read bytes = .ok header → ∀ buffer : ByteArray, 1600 ≤ buffer.size → ∃ after,
      InPlace.header header buffer = (.ok (), after) ∧ read after = .ok header ∧
      (slice after 0 1596 = slice bytes 0 1596 ↔ Canonical bytes) := by
  refine ⟨checks_read bytes, ?_, fun limit enough => Piecewise.header_eq bytes enough, ?_⟩
  · rw [(checks_read bytes).exists_ok_iff, defects_eq_nil_iff]
  · intro header taken buffer long
    have found := readFrom_of_read taken
    have size := size_image found.fits
    have within : 0 + header.image.size ≤ buffer.size := by
      rw [size]
      exact Nat.le_trans (by decide) long
    have front : slice (Bytes.splice buffer 0 header.image) 0 Layout.jobStatusAt =
        header.image := by
      rw [← size, Bytes.slice_splice_self within]
    refine ⟨_, InPlace.header_eq long found.fits, ?_, ?_⟩
    · have reread := InPlace.read_front found.fits front (Nat.le_trans (by decide) long)
        (Nat.le_of_eq (Bytes.size_splice within).symm)
      rwa [← Bytes.size_splice within, Bytes.slice_all] at reread
    · change slice _ 0 Layout.jobStatusAt = _ ↔ _
      rw [front]
      exact found.image_eq_iff

/-- A buffer of zeros but for a flag of two.  It is read as a final part, and when that is
written the flag is one. -/
theorem read_exact_largeFlag :
    let bytes := Bytes.splice (zeros 1600) 24 (encode 1 2)
    ∃ header, read bytes = .ok header ∧ 1600 ≤ bytes.size ∧ ∃ after,
      InPlace.header header bytes = (.ok (), after) ∧ read after = .ok header ∧
      slice after 0 1596 ≠ slice bytes 0 1596 := by
  intro bytes
  have room : 24 + (encode 1 2).size ≤ (zeros 1600).size := by
    rw [size_encode, Bytes.size_zeros]
    decide
  have size : bytes.size = 1600 := by rw [Bytes.size_splice room, Bytes.size_zeros]
  have flag : word bytes 24 1 = 2 := by
    have held := Bytes.slice_splice_self room
    rw [size_encode] at held
    exact word_of_slice held (by decide)
  have zero {offset width : Nat} (apart : Bytes.Apart offset width 24 1)
      (inside : offset + width ≤ 1600) : word bytes offset width = decode (zeros width) := by
    rw [word, Bytes.slice_splice_of_apart room (by rwa [size_encode]), Bytes.slice_zeros inside]
  have long : 1600 ≤ bytes.size := Nat.le_of_eq size.symm
  have places : ∀ field ∈ TextField.all, Bytes.Apart field.offset field.lengthWidth 24 1 ∧
      field.offset + field.lengthWidth ≤ 1600 ∧ decode (zeros field.lengthWidth) = 0 := by
    simp only [TextField.all, List.forall_mem_cons, Bytes.Apart]
    decide
  have texts : ∀ field ∈ TextField.all,
      field.storedLength bytes ≤ field.capacity ∧ (field.stored bytes).IsValidUTF8 := by
    intro field member
    obtain ⟨apart, inside, blank⟩ := places field member
    have length : field.storedLength bytes = 0 := (zero apart inside).trans blank
    have none : field.stored bytes = .empty := by
      rw [TextField.stored, length, slice, Nat.add_zero, ByteArray.extract_same]
    rw [length, none]
    exact ⟨Nat.zero_le _, isValidUTF8_iff.2 ⟨"", rfl⟩⟩
  have readable : Readable bytes := {
    long := Nat.le_trans (by decide) long
    version := zero (.inl (by decide)) (by decide)
    priority := Nat.le_trans (Nat.le_of_eq (zero (.inr (by decide)) (by decide))) (by decide)
    route := Nat.le_trans (Nat.le_of_eq (zero (.inr (by decide)) (by decide))) (by decide)
    logLevel := Nat.le_trans (Nat.le_of_eq (zero (.inr (by decide)) (by decide))) (by decide)
    texts }
  obtain ⟨-, accepts, -, rewritten⟩ := read_exact bytes
  obtain ⟨header, taken⟩ := accepts.2 readable
  obtain ⟨after, written, reread, same⟩ := rewritten header taken bytes long
  refine ⟨header, taken, long, after, written, reread, fun equal => ?_⟩
  have small := (same.1 equal).flags 24 (by decide)
  rw [flag] at small
  cases Nat.not_succ_le_self 1 small

end Header

end Plan

end TransferLedger
