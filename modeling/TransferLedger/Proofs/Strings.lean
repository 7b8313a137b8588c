import TransferLedger.Proofs.Admission

/-! The path strings of a plan whose bytes may be damaged.

A descriptor may hold any offset and any lengths.  The strings that it describes are given
exactly if they stand behind the records, inside of the region, and are UTF-8; what is given
are the bytes of the two ranges.  A program that adds offsets in machine words comes to the
same result, since every sum that it does not check is one of a range that was read.
-/

namespace TransferLedger.Plan

open Bytes (slice)
open Volume (Path Place File)

theorem text_eq_ok_iff {what value : String} {bytes : ByteArray} :
    text what bytes = .ok value ↔ value.toUTF8 = bytes := by
  constructor
  · intro read
    rw [text] at read
    cases decoded : Text.Utf8.decode bytes with
    | error fault => simp [decoded] at read
    | ok found =>
        simp only [decoded, mapError_ok, Except.ok.injEq] at read
        rw [← read]
        exact Text.Utf8.toUTF8_of_decode decoded
  · rintro rfl
    rw [text, Text.Utf8.decode_toUTF8, mapError_ok]

theorem text_eq_error_iff {what : String} {bytes : ByteArray} {fault : Fault} :
    text what bytes = .error fault ↔
      ¬ bytes.IsValidUTF8 ∧ fault = .invalidUtf8 what (Text.Utf8.faultOf bytes) := by
  rw [text, Text.Utf8.decode]
  split
  · rename_i valid
    simp [valid]
  · rename_i broken
    simp [broken, eq_comm]

theorem isValidUTF8_iff {bytes : ByteArray} :
    bytes.IsValidUTF8 ↔ ∃ value : String, value.toUTF8 = bytes :=
  ⟨fun valid => ⟨String.fromUTF8 bytes valid, rfl⟩, fun ⟨value, same⟩ => same ▸ value.isValidUTF8⟩

namespace Descriptor

def destinationOffset (descriptor : Descriptor) : Nat :=
  descriptor.sourceOffset.toNat + descriptor.sourceLength.toNat

def sourceIn (descriptor : Descriptor) (bytes : ByteArray) : ByteArray :=
  slice bytes descriptor.sourceOffset.toNat descriptor.sourceLength.toNat

def destinationIn (descriptor : Descriptor) (bytes : ByteArray) : ByteArray :=
  slice bytes descriptor.destinationOffset descriptor.destinationLength.toNat

theorem destinationOffset_le (descriptor : Descriptor) :
    descriptor.destinationOffset ≤ descriptor.stringsEnd :=
  Nat.le_add_right _ _

end Descriptor

namespace Region

variable {region : Region} {record : Record} {index : UInt32} {fault : Fault}
variable {bytes : ByteArray} {offset length : Nat} {source destination : String}

theorem read_eq_ok_iff :
    region.read offset length = .ok bytes ↔
      offset + length ≤ region.bytes.size ∧ slice region.bytes offset length = bytes := by
  rw [read]
  split
  · rename_i within
    simp [within]
  · rename_i outside
    simp [outside]

theorem read_eq_error_iff :
    region.read offset length = .error fault ↔
      region.bytes.size < offset + length ∧
        fault = .outOfBounds offset length region.bytes.size := by
  rw [read]
  split
  · rename_i within
    simp [Nat.not_lt.2 within]
  · rename_i outside
    simp [Nat.lt_of_not_le outside, eq_comm]

theorem read_source {descriptor : Descriptor}
    (inside : descriptor.destinationOffset ≤ region.bytes.size) :
    region.read descriptor.sourceOffset.toNat descriptor.sourceLength.toNat =
      .ok (descriptor.sourceIn region.bytes) :=
  read_eq inside

theorem read_destination {descriptor : Descriptor}
    (within : descriptor.stringsEnd ≤ region.bytes.size) :
    region.read descriptor.destinationOffset descriptor.destinationLength.toNat =
      .ok (descriptor.destinationIn region.bytes) :=
  read_eq within

/-- The strings of a record, once its descriptor has been read. -/
theorem strings_of_record (taken : region.record index = .ok record) :
    region.strings index =
      if record.descriptor.sourceOffset.toNat < Layout.stringsAt region.count.toNat then
        .error (.outOfBounds record.descriptor.sourceOffset.toNat 0 region.bytes.size)
      else (do
        let source ← region.read record.descriptor.sourceOffset.toNat
          record.descriptor.sourceLength.toNat
        let destination ← region.read record.descriptor.destinationOffset
          record.descriptor.destinationLength.toNat
        let sourceText ← text ("source of transfer " ++ toString index.toNat) source
        let destinationText ← text ("destination of transfer " ++ toString index.toNat) destination
        .ok (sourceText, destinationText)) := by
  rw [strings, taken, ok_bind]
  rfl

theorem strings_eq_ok_iff (taken : region.record index = .ok record) :
    region.strings index = .ok (source, destination) ↔
      Layout.stringsAt region.count.toNat ≤ record.descriptor.sourceOffset.toNat ∧
      record.descriptor.stringsEnd ≤ region.bytes.size ∧
      source.toUTF8 = record.descriptor.sourceIn region.bytes ∧
      destination.toUTF8 = record.descriptor.destinationIn region.bytes := by
  rw [strings_of_record taken]
  by_cases behind : Layout.stringsAt region.count.toNat ≤ record.descriptor.sourceOffset.toNat
  · rw [if_neg (Nat.not_lt.2 behind)]
    simp only [bind_eq_ok_iff, read_eq_ok_iff, text_eq_ok_iff, behind, true_and]
    constructor
    · rintro ⟨_, ⟨_, rfl⟩, _, ⟨within, rfl⟩, _, sourceRead, _, destinationRead, same⟩
      cases same
      exact ⟨within, sourceRead, destinationRead⟩
    · rintro ⟨within, sourceRead, destinationRead⟩
      have front := Nat.le_trans record.descriptor.destinationOffset_le within
      exact ⟨_, ⟨front, rfl⟩, _, ⟨within, rfl⟩, source, sourceRead, destination, destinationRead,
        rfl⟩
  · rw [if_pos (Nat.lt_of_not_le behind)]
    exact ⟨nofun, fun all => absurd all.1 behind⟩

/-- What is wrong with the strings of a transfer, and the fault that tells it. -/
inductive Misread (region : Region) (index : UInt32) (descriptor : Descriptor) : Fault → Prop where
  | early (before : descriptor.sourceOffset.toNat < Layout.stringsAt region.count.toNat) :
      Misread region index descriptor
        (.outOfBounds descriptor.sourceOffset.toNat 0 region.bytes.size)
  | source (behind : Layout.stringsAt region.count.toNat ≤ descriptor.sourceOffset.toNat)
      (outside : region.bytes.size < descriptor.destinationOffset) :
      Misread region index descriptor
        (.outOfBounds descriptor.sourceOffset.toNat descriptor.sourceLength.toNat
          region.bytes.size)
  | destination (behind : Layout.stringsAt region.count.toNat ≤ descriptor.sourceOffset.toNat)
      (inside : descriptor.destinationOffset ≤ region.bytes.size)
      (outside : region.bytes.size < descriptor.stringsEnd) :
      Misread region index descriptor
        (.outOfBounds descriptor.destinationOffset descriptor.destinationLength.toNat
          region.bytes.size)
  | sourceText (behind : Layout.stringsAt region.count.toNat ≤ descriptor.sourceOffset.toNat)
      (within : descriptor.stringsEnd ≤ region.bytes.size)
      (broken : ¬ (descriptor.sourceIn region.bytes).IsValidUTF8) :
      Misread region index descriptor
        (.invalidUtf8 ("source of transfer " ++ toString index.toNat)
          (Text.Utf8.faultOf (descriptor.sourceIn region.bytes)))
  | destinationText (behind : Layout.stringsAt region.count.toNat ≤ descriptor.sourceOffset.toNat)
      (within : descriptor.stringsEnd ≤ region.bytes.size)
      (valid : (descriptor.sourceIn region.bytes).IsValidUTF8)
      (broken : ¬ (descriptor.destinationIn region.bytes).IsValidUTF8) :
      Misread region index descriptor
        (.invalidUtf8 ("destination of transfer " ++ toString index.toNat)
          (Text.Utf8.faultOf (descriptor.destinationIn region.bytes)))

theorem strings_eq_error_iff (taken : region.record index = .ok record) :
    region.strings index = .error fault ↔ region.Misread index record.descriptor fault := by
  rw [strings_of_record taken]
  constructor
  · intro failed
    split at failed
    · rename_i before
      cases failed
      exact .early before
    · rename_i front
      have behind := Nat.not_lt.1 front
      simp only [bind_eq_error_iff, read_eq_error_iff, read_eq_ok_iff, text_eq_error_iff,
        text_eq_ok_iff, reduceCtorEq, and_false, exists_false, or_false] at failed
      obtain ⟨outside, rfl⟩ | ⟨_, ⟨inside, rfl⟩, ⟨outside, rfl⟩ | ⟨_, ⟨within, rfl⟩,
        ⟨broken, rfl⟩ | ⟨source, sourceRead, broken, rfl⟩⟩⟩ := failed
      · exact .source behind outside
      · exact .destination behind inside outside
      · exact .sourceText behind within broken
      · exact .destinationText behind within (isValidUTF8_iff.2 ⟨source, sourceRead⟩) broken
  · intro misread
    have inner := record.descriptor.destinationOffset_le
    cases misread with
    | early before => rw [if_pos before]
    | source behind outside =>
        rw [if_neg (Nat.not_lt.2 behind), read_eq_error_iff.2 ⟨outside, rfl⟩, error_bind]
    | destination behind inside outside =>
        have refused := read_eq_error_iff.2 ⟨outside, rfl⟩
        rw [if_neg (Nat.not_lt.2 behind), read_source inside, ok_bind]
        exact congrArg (· >>= _) refused
    | sourceText behind within broken =>
        have inside := Nat.le_trans inner within
        rw [if_neg (Nat.not_lt.2 behind), read_source inside, ok_bind,
          read_destination within, ok_bind, text_eq_error_iff.2 ⟨broken, rfl⟩, error_bind]
    | destinationText behind within valid broken =>
        obtain ⟨source, sourceRead⟩ := isValidUTF8_iff.1 valid
        have inside := Nat.le_trans inner within
        rw [if_neg (Nat.not_lt.2 behind), read_source inside, ok_bind,
          read_destination within, ok_bind, text_eq_ok_iff.2 sourceRead, ok_bind,
          text_eq_error_iff.2 ⟨broken, rfl⟩, error_bind]

end Region

/-! ## Reading in machine words -/

/-- How a reading that computes in words of 64 bits ends without a result. -/
inductive Halt where
  | fault (fault : Fault)
  /-- A sum or a product that no word holds. -/
  | overflow
  /-- Bytes of a string were asked for in front of the strings. -/
  | misplaced
  deriving DecidableEq

namespace InWords

def add (left right : UInt64) : Except Halt UInt64 :=
  if left.toNat + right.toNat < UInt64.size then .ok (left + right) else .error .overflow

def mul (left right : UInt64) : Except Halt UInt64 :=
  if left.toNat * right.toNat < UInt64.size then .ok (left * right) else .error .overflow

def recordAt (index : UInt32) : Except Halt UInt64 := do
  add (.ofNat Layout.headerSize) (← mul index.toUInt64 (.ofNat Layout.recordSize))

/-- The bytes of a range.  Here the sum is checked: an end that no word holds is outside of
every region. -/
def read (region : Region) (offset length : UInt64) : Except Halt ByteArray :=
  match add offset length with
  | .ok finish =>
      if finish ≤ .ofNat region.bytes.size then
        .ok (slice region.bytes offset.toNat length.toNat)
      else .error (.fault (.outOfBounds offset.toNat length.toNat region.bytes.size))
  | .error _ => .error (.fault (.outOfBounds offset.toNat length.toNat region.bytes.size))

def record (region : Region) (index : UInt32) : Except Halt Record := do
  if region.count ≤ index then .error (.fault (.indexOutOfRange index region.count))
  else
    let offset ← recordAt index
    let immutable ← read region offset (.ofNat Layout.completionTimeAt)
    let _ ← read region (← add offset (.ofNat Layout.completionTimeAt)) 8
    let _ ← read region (← add offset (.ofNat Layout.transferStatusAt)) 4
    .ok { index, descriptor := Descriptor.read immutable }

def readString (region : Region) (offset length : UInt64) : Except Halt ByteArray := do
  if offset < (← recordAt region.count) then .error .misplaced else read region offset length

def strings (region : Region) (index : UInt32) : Except Halt (String × String) := do
  let record ← record region index
  let start := record.descriptor.sourceOffset
  if start < (← recordAt region.count) then
    .error (.fault (.outOfBounds start.toNat 0 region.bytes.size))
  else
    let length := record.descriptor.sourceLength.toUInt64
    let source ← readString region start length
    let destination ← readString region (← add start length)
      record.descriptor.destinationLength.toUInt64
    let sourceText ← (text ("source of transfer " ++ toString index.toNat) source).mapError
      Halt.fault
    let destinationText ← (text ("destination of transfer " ++ toString index.toNat)
      destination).mapError Halt.fault
    .ok (sourceText, destinationText)

variable {region : Region} {left right offset length : UInt64} {index : UInt32}

theorem add_eq (fits : left.toNat + right.toNat < UInt64.size) :
    add left right = .ok (left + right) :=
  if_pos fits

theorem toNat_add (fits : left.toNat + right.toNat < UInt64.size) :
    (left + right).toNat = left.toNat + right.toNat := by
  rw [UInt64.toNat_add]
  exact Nat.mod_eq_of_lt fits

theorem recordAt_lt (index : UInt32) :
    Layout.recordAt index.toNat + Layout.recordSize < UInt64.size := by
  have small := index.toNat_lt
  simp only [Layout.recordAt, Layout.headerSize, Layout.recordSize, UInt64.size]
  omega

theorem toNat_recordAt (index : UInt32) :
    (UInt64.ofNat (Layout.recordAt index.toNat)).toNat = Layout.recordAt index.toNat :=
  UInt64.toNat_ofNat_of_lt (Nat.lt_of_le_of_lt (Nat.le_add_right _ _) (recordAt_lt index))

theorem recordAt_eq (index : UInt32) :
    recordAt index = .ok (UInt64.ofNat (Layout.recordAt index.toNat)) := by
  have bound := recordAt_lt index
  have head : (UInt64.ofNat Layout.headerSize).toNat = Layout.headerSize := rfl
  have factors : index.toUInt64.toNat * (UInt64.ofNat Layout.recordSize).toNat =
      index.toNat * Layout.recordSize := rfl
  have small : index.toNat * Layout.recordSize < UInt64.size := by
    rw [Layout.recordAt] at bound
    omega
  have product : (index.toUInt64 * UInt64.ofNat Layout.recordSize).toNat =
      index.toNat * Layout.recordSize := by
    rw [UInt64.toNat_mul, factors]
    exact Nat.mod_eq_of_lt small
  have fits : (UInt64.ofNat Layout.headerSize).toNat +
      (index.toUInt64 * UInt64.ofNat Layout.recordSize).toNat < UInt64.size := by
    rw [head, product]
    exact Nat.lt_of_le_of_lt (Nat.le_add_right _ _) bound
  rw [recordAt, mul, factors, if_pos small, ok_bind, add_eq fits, Except.ok.injEq]
  apply UInt64.toNat_inj.1
  rw [toNat_add fits, head, product, toNat_recordAt]
  rfl

/-- The checked sum is outside of the region exactly if the unbounded one is. -/
theorem read_eq (small : region.bytes.size < UInt64.size) (offset length : UInt64) :
    read region offset length =
      (region.read offset.toNat length.toNat).mapError Halt.fault := by
  rw [read, Region.read]
  by_cases fits : offset.toNat + length.toNat < UInt64.size
  · have size : (UInt64.ofNat region.bytes.size).toNat = region.bytes.size :=
      UInt64.toNat_ofNat_of_lt small
    have finish : offset + length ≤ UInt64.ofNat region.bytes.size ↔
        offset.toNat + length.toNat ≤ region.bytes.size := by
      rw [UInt64.le_iff_toNat_le, toNat_add fits, size]
    rw [add_eq fits]
    by_cases within : offset.toNat + length.toNat ≤ region.bytes.size
    · simp only [finish, within, if_true, mapError_ok]
    · simp only [finish, within, if_false, mapError_error]
  · have outside : ¬ offset.toNat + length.toNat ≤ region.bytes.size := by omega
    rw [add, if_neg fits, if_neg outside, mapError_error]

theorem record_eq (small : region.bytes.size < UInt64.size) (index : UInt32) :
    record region index = (region.record index).mapError Halt.fault := by
  rw [record, Region.record]
  by_cases unknown : region.count ≤ index
  · rw [if_pos unknown, if_pos unknown, mapError_error]
  · have bound := recordAt_lt index
    have start := toNat_recordAt index
    have completion : (UInt64.ofNat (Layout.recordAt index.toNat)).toNat +
        (UInt64.ofNat Layout.completionTimeAt).toNat < UInt64.size := by
      rw [start]
      exact Nat.lt_of_le_of_lt (Nat.add_le_add_left (by decide) _) bound
    have status : (UInt64.ofNat (Layout.recordAt index.toNat)).toNat +
        (UInt64.ofNat Layout.transferStatusAt).toNat < UInt64.size := by
      rw [start]
      exact Nat.lt_of_le_of_lt (Nat.add_le_add_left (by decide) _) bound
    rw [if_neg unknown, if_neg unknown, recordAt_eq, ok_bind, add_eq completion, add_eq status]
    simp only [ok_bind, read_eq small, toNat_add completion, toNat_add status, start,
      mapError_bind, mapError_ok]
    rfl

/-- Behind the start of the strings nothing is misplaced. -/
theorem readString_eq (small : region.bytes.size < UInt64.size)
    (behind : Layout.stringsAt region.count.toNat ≤ offset.toNat) (length : UInt64) :
    readString region offset length =
      (region.read offset.toNat length.toNat).mapError Halt.fault := by
  have placed : ¬ offset < UInt64.ofNat (Layout.recordAt region.count.toNat) := by
    rw [UInt64.lt_iff_toNat_lt, toNat_recordAt]
    exact Nat.not_lt.2 behind
  rw [readString, recordAt_eq, ok_bind, if_neg placed, read_eq small]

/-- No sum and no product wraps around, and no string is read in front of the strings: a
reading in machine words gives what the reading in unbounded numbers gives. -/
theorem strings_eq (small : region.bytes.size < UInt64.size) (index : UInt32) :
    strings region index = (region.strings index).mapError Halt.fault := by
  rw [strings, Region.strings, record_eq small, mapError_bind]
  congr 1
  funext record
  have boundary : record.descriptor.sourceOffset <
      UInt64.ofNat (Layout.recordAt region.count.toNat) ↔
      record.descriptor.sourceOffset.toNat < Layout.stringsAt region.count.toNat := by
    rw [UInt64.lt_iff_toNat_lt, toNat_recordAt]
    rfl
  rw [recordAt_eq, ok_bind]
  by_cases early : record.descriptor.sourceOffset.toNat < Layout.stringsAt region.count.toNat
  · rw [if_pos (boundary.2 early), if_pos early, mapError_error]
  · have behind := Nat.not_lt.1 early
    have sourceLength : record.descriptor.sourceLength.toUInt64.toNat =
        record.descriptor.sourceLength.toNat := rfl
    rw [if_neg fun before => early (boundary.1 before), if_neg early]
    dsimp only
    rw [readString_eq small behind, sourceLength]
    by_cases inside : record.descriptor.destinationOffset ≤ region.bytes.size
    · have fits : record.descriptor.sourceOffset.toNat +
          record.descriptor.sourceLength.toUInt64.toNat < UInt64.size :=
        Nat.lt_of_le_of_lt inside small
      have middle := toNat_add fits
      have behindToo : Layout.stringsAt region.count.toNat ≤
          (record.descriptor.sourceOffset + record.descriptor.sourceLength.toUInt64).toNat := by
        rw [middle]
        exact Nat.le_trans behind (Nat.le_add_right _ _)
      rw [Region.read_source inside, mapError_ok, ok_bind, add_eq fits, ok_bind,
        readString_eq small behindToo, middle, sourceLength]
      simp only [mapError_bind, mapError_ok, ok_bind]
      rfl
    · have refused := Region.read_eq_error_iff.2 ⟨Nat.lt_of_not_le inside, rfl⟩
      rw [refused, mapError_error, error_bind, error_bind, mapError_error]

end InWords

/-! ## Strings of an open plan -/

namespace Handle

variable {volume later : Volume} {path : Path} {handle : Handle} {index : UInt32}
variable {region : Region} {descriptor : Descriptor}

/-- The strings that the handle has for a transfer are the two ranges of the bytes that a
descriptor names, or it says what is wrong with them.  None of their bytes belongs to the
header or to a record, and a reading in machine words has the same result. -/
structure Reads (handle : Handle) (volume : Volume) (index : UInt32) (bytes : ByteArray)
    (descriptor : Descriptor) : Prop where
  record : handle.record volume index = .ok { index, descriptor }
  length : handle.regionLength volume = .ok bytes.size
  readable : (∃ strings, handle.strings volume index = .ok strings) ↔
    1600 + 48 * handle.count.toNat ≤ descriptor.sourceOffset.toNat ∧
      descriptor.sourceOffset.toNat + descriptor.sourceLength.toNat +
        descriptor.destinationLength.toNat ≤ bytes.size ∧
      (descriptor.sourceIn bytes).IsValidUTF8 ∧ (descriptor.destinationIn bytes).IsValidUTF8
  exact : ∀ source destination, handle.strings volume index = .ok (source, destination) →
    source.toUTF8 = descriptor.sourceIn bytes ∧
      destination.toUTF8 = descriptor.destinationIn bytes
  behind : ∀ strings, handle.strings volume index = .ok strings →
    1600 ≤ descriptor.sourceOffset.toNat ∧
      ∀ other, other < handle.count → 1648 + 48 * other.toNat ≤ descriptor.sourceOffset.toNat
  refused : ∀ fault, handle.strings volume index = .error fault ↔
    Region.Misread { count := handle.count, bytes } index descriptor fault
  inWords : bytes.size < UInt64.size →
    InWords.strings { count := handle.count, bytes } index =
      (handle.strings volume index).mapError Halt.fault

theorem Shows.reads (shown : handle.Shows volume region)
    (taken : region.record index = .ok { index, descriptor }) :
    handle.Reads volume index region.bytes descriptor := by
  have count := shown.count_eq
  have given : handle.strings volume index = region.strings index := shown.view_eq _
  have same : ({ count := handle.count, bytes := region.bytes } : Region) = region := by rw [count]
  have readable : ∀ source destination, handle.strings volume index = .ok (source, destination) →
      1600 + 48 * handle.count.toNat ≤ descriptor.sourceOffset.toNat := by
    intro source destination read
    rw [given] at read
    rw [count, ← stringsAt_literal]
    exact ((Region.strings_eq_ok_iff taken).1 read).1
  constructor
  · exact (shown.view_eq _).trans taken
  · exact shown.view_eq _
  · rw [given, count, ← stringsAt_literal]
    constructor
    · rintro ⟨⟨source, destination⟩, read⟩
      obtain ⟨behind, within, sourceRead, destinationRead⟩ :=
        (Region.strings_eq_ok_iff taken).1 read
      exact ⟨behind, within, isValidUTF8_iff.2 ⟨source, sourceRead⟩,
        isValidUTF8_iff.2 ⟨destination, destinationRead⟩⟩
    · rintro ⟨behind, within, sourceValid, destinationValid⟩
      obtain ⟨source, sourceRead⟩ := isValidUTF8_iff.1 sourceValid
      obtain ⟨destination, destinationRead⟩ := isValidUTF8_iff.1 destinationValid
      exact ⟨_, (Region.strings_eq_ok_iff taken).2
        ⟨behind, within, sourceRead, destinationRead⟩⟩
  · intro source destination read
    rw [given] at read
    exact ((Region.strings_eq_ok_iff taken).1 read).2.2
  · rintro ⟨source, destination⟩ read
    have behind := readable source destination read
    refine ⟨by omega, fun other known => ?_⟩
    have inside := UInt32.lt_iff_toNat_lt.1 known
    omega
  · intro fault
    rw [given, same]
    exact Region.strings_eq_error_iff taken
  · intro small
    rw [given, same]
    exact InWords.strings_eq small index

/-- However the bytes of an open plan are overwritten, the strings of each transfer are read
as its record says at that time, or refused. -/
theorem strings_exact (taken : «open» volume path = .ok handle)
    (replaced : volume.Overwritten path later) (known : index < handle.count) :
    ∃ bytes, later.read path = .ok bytes ∧
      handle.Reads later index bytes
        (Descriptor.read (slice bytes (1600 + 48 * index.toNat) 32)) := by
  obtain ⟨region, read, shown, whole⟩ := region_of_open taken replaced
  rw [shown.count_eq] at known
  have found := whole.record_eq known
  have place : Layout.recordAt index.toNat = 1600 + 48 * index.toNat := stringsAt_literal _
  rw [place] at found
  exact ⟨region.bytes, read, shown.reads found⟩

/-- A record whose source is said to end one byte after the last offset that a word holds. -/
theorem strings_exact_greatestOffset :
    let order : Order := { items := [{ source := "a", destination := "b" }] }
    let path : Path := { parts := ["plan"] }
    let place : Place := { depth := 1, names := ["plan"] }
    let volume := ({} : Volume).put place (.file { bytes := order.image })
    let damaged : Descriptor := { sourceOffset := 0xFFFFFFFFFFFFFFFF, sourceLength := 1 }
    ∃ handle later, «open» volume path = .ok handle ∧
      volume.overwrite path 1600 damaged.image = .ok later ∧
      volume.Overwritten path later ∧ 0 < handle.count ∧
      handle.strings later 0 = .error (.outOfBounds 0xFFFFFFFFFFFFFFFF 1 1650) := by
  intro order path place volume damaged
  have valid : order.Valid := Order.validate_eq_ok_iff.1 rfl
  have found : volume.lookup path = .ok (place, .file { bytes := order.image }) :=
    Volume.lookup_put rfl _
  have size : order.image.size = 1650 := Order.size_image valid.header
  have within : 1600 + damaged.image.size ≤ order.image.size := by
    rw [size, Descriptor.size_image]
    decide
  obtain ⟨later, patched, there, replaced⟩ := Volume.overwritten_overwrite found within
  have taken : «open» volume path =
      .ok { backing := .file place order.image.size, count := 1 } :=
    open_created valid (rfl : ({} : Volume).filePlace path = .ok place)
  have known : (0 : UInt32) < 1 := by decide
  refine ⟨_, later, taken, patched, replaced, known, ?_⟩
  obtain ⟨bytes, read, reads⟩ := strings_exact taken replaced known
  rw [there, Except.ok.injEq] at read
  subst read
  have record : Descriptor.read (slice (Bytes.splice order.image 1600 damaged.image)
      (1600 + 48 * (0 : UInt32).toNat) 32) = damaged := by
    have written := Bytes.slice_splice_self within
    rw [Descriptor.size_image] at written
    exact (congrArg Descriptor.read written).trans (Descriptor.read_image damaged)
  rw [record] at reads
  have length : (Bytes.splice order.image 1600 damaged.image).size = 1650 := by
    rw [Bytes.size_splice within, size]
  have misread : Region.Misread
      { count := 1, bytes := Bytes.splice order.image 1600 damaged.image } 0 damaged
      (.outOfBounds 0xFFFFFFFFFFFFFFFF 1 (Bytes.splice order.image 1600 damaged.image).size) :=
    .source (by decide) (length ▸ by decide)
  rw [length] at misread
  exact (reads.refused _).2 misread

end Handle

end TransferLedger.Plan
