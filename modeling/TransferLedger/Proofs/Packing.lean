import Mathlib.Algebra.Group.Nat.Defs
import TransferLedger.Proofs.Handle
import TransferLedger.Proofs.InPlace

/-! Orders laid out in place.

One pass writes a record and two strings for each item.  The records go to their slots and the
strings behind the ones before, so what the pass leaves are two runs of bytes, and with the
header they come to the image of the order.  The strings stand in the image one behind the
other and fill it from the last record to its end.
-/

namespace TransferLedger.Plan

open Bytes (slice splice Ascending)
open Bytes.LittleEndian (encode size_encode)
open TransferLedger.Plan.Order (Item lengthOf recordBytes stringBytes)

namespace InPlace

variable {writing : Writing Unit} {parts : List (Nat × ByteArray)} {buffer : ByteArray}
variable {length width index cursor : Nat} {list : List Item} {order : Order}

/-! ## Records -/

theorem Lays.mono (lays : Lays length writing parts) (longer : length ≤ width) :
    Lays width writing parts :=
  fun buffer long => lays buffer (Nat.le_trans longer long)

theorem lays_descriptor (descriptor : Descriptor) :
    Lays Layout.completionTimeAt (InPlace.descriptor descriptor) [(0, descriptor.image)] := by
  have pieces : Lays Layout.completionTimeAt (InPlace.descriptor descriptor)
      ((0, Bytes.zeros Layout.completionTimeAt) :: descriptor.parts) :=
    (lays_clear (by decide)).bind <| (lays_word (by decide)).bind <|
    (lays_word (by decide)).bind <| (lays_word (by decide)).bind <|
    (lays_word (by decide)).bind <| lays_word (by decide)
  exact pieces.atFront descriptor.parts_ascending

/-- The parts of a record leave its last four bytes blank. -/
theorem lay_record (item : Item) (cursor : Nat) :
    Bytes.lay (Bytes.zeros Layout.recordSize) [(0, (item.descriptor cursor).image),
      (Layout.completionTimeAt, encode 8 0),
      (Layout.transferStatusAt, transferWord .notStarted)] = item.record cursor := by
  let blank := Bytes.zeros Layout.recordSize
  let described := (item.descriptor cursor).image
  let stamp := encode 8 0
  let word := transferWord .notStarted
  have blankSize : blank.size = 48 := Bytes.size_zeros _
  have size : described.size = 32 := Descriptor.size_image _
  have stampSize : stamp.size = 8 := size_encode _ _
  have wordSize : word.size = 4 := size_encode _ _
  have frontSize : (described ++ stamp).size = 40 := by
    rw [ByteArray.size_append, size, stampSize]
  have allSize : (described ++ stamp ++ word).size = 44 := by
    rw [ByteArray.size_append, frontSize, wordSize]
  have stamped : splice (splice blank 0 described) (0 + described.size) stamp =
      splice blank 0 (described ++ stamp) := Bytes.splice_append (by omega)
  have marked : splice (splice blank 0 (described ++ stamp)) (0 + (described ++ stamp).size)
      word = splice blank 0 (described ++ stamp ++ word) := Bytes.splice_append (by omega)
  rw [size] at stamped
  rw [frontSize] at marked
  have rest : blank.extract (0 + 44) 48 = Bytes.zeros 4 := by rfl
  calc splice (splice (splice blank 0 described) (0 + 32) stamp) (0 + 40) word
      = splice blank 0 (described ++ stamp ++ word) := by rw [stamped, marked]
    _ = item.record cursor := by
        rw [Bytes.splice_eq, allSize, blankSize, rest, ByteArray.extract_same,
          ByteArray.empty_append]
        rfl

/-- Whatever stood in the slot, the record fills it. -/
theorem record_fills (item : Item) (cursor : Nat) (slot : ByteArray)
    (size : slot.size = Layout.recordSize) :
    InPlace.record item cursor slot = (.ok (), item.record cursor) := by
  let described := (item.descriptor cursor).image
  have pieces : Lays Layout.recordSize (InPlace.record item cursor)
      ((0, Bytes.zeros Layout.recordSize) :: [(0, described),
        (Layout.completionTimeAt, encode 8 0),
        (Layout.transferStatusAt, transferWord .notStarted)]) :=
    (lays_clear (by decide)).bind <| ((lays_descriptor _).mono (by decide)).bind <|
    (lays_word (by decide)).bind <| lays_word (by decide)
  have ascending : Ascending 0 Layout.recordSize [(0, described),
      (Layout.completionTimeAt, encode 8 0),
      (Layout.transferStatusAt, transferWord .notStarted)] := by
    simp only [Ascending, described, Descriptor.size_image, transferWord, size_encode]
    decide
  have laid := pieces.atFront ascending
  rw [lay_record] at laid
  exact laid.whole (Order.size_record item cursor) slot size

/-! ## The pass over the items -/

/-- One round of the pass. -/
theorem items_cons {item : Item} {rest : List Item} (known : index < UInt32.size)
    (apart : Layout.recordAt index + Layout.recordSize ≤ cursor)
    (room : cursor + item.length ≤ buffer.size) :
    items index cursor (item :: rest) buffer =
      items (index + 1) (cursor + item.length) rest
        (splice (splice buffer cursor (item.source.toUTF8 ++ item.destination.toUTF8))
          (Layout.recordAt index) (item.record cursor)) := by
  let source := item.source.toUTF8
  let destination := item.destination.toUTF8
  have sizes : source.size + destination.size = item.length := rfl
  have joined : (source ++ destination).size = item.length := ByteArray.size_append
  have number : (UInt32.ofNat index).toNat = index := UInt32.toNat_ofNat_of_lt known
  have sourceRoom : cursor + source.size ≤ buffer.size := by omega
  have sourceSize := Bytes.size_splice sourceRoom
  have destinationRoom : cursor + source.size + destination.size ≤
      (splice buffer cursor source).size := by omega
  have stringsRoom : cursor + (source ++ destination).size ≤ buffer.size := by omega
  have stringsSize := Bytes.size_splice stringsRoom
  have recordDone := lays_onPart apart (Order.size_record item cursor) (record_fills item cursor)
    (splice buffer cursor (source ++ destination)) (by omega)
  have strings : splice (splice buffer cursor source) (cursor + source.size) destination =
      splice buffer cursor (source ++ destination) := Bytes.splice_append (by omega)
  rw [items, ok_then (put_eq sourceRoom), ok_then (put_eq destinationRoom), strings, number,
    ok_then recordDone.1]
  rfl

/-- The pass leaves the records behind each other from the first slot on and the strings from
the cursor on. -/
theorem items_eq (few : index + list.length < UInt32.size)
    (apart : Layout.recordAt (index + list.length) ≤ cursor)
    (room : cursor + lengthOf list ≤ buffer.size) :
    items index cursor list buffer = (.ok (cursor + lengthOf list),
      splice (splice buffer (Layout.recordAt index) (recordBytes cursor list)) cursor
        (stringBytes list)) := by
  induction list generalizing index cursor buffer with
  | nil =>
      have front : cursor ≤ buffer.size := room
      have behind : Layout.recordAt index ≤ buffer.size := Nat.le_trans apart front
      rw [recordBytes, stringBytes, Bytes.splice_empty behind, Bytes.splice_empty front]
      rfl
  | cons item rest ih =>
      let strings := item.source.toUTF8 ++ item.destination.toUTF8
      let record := item.record cursor
      let after := splice (splice buffer cursor strings) (Layout.recordAt index) record
      have total : lengthOf (item :: rest) = item.length + lengthOf rest := rfl
      have stringsSize : strings.size = item.length := ByteArray.size_append
      have recordSize : record.size = 48 := Order.size_record _ _
      have laterStrings : (stringBytes rest).size = lengthOf rest := Order.size_stringBytes _
      have laterRecords : (recordBytes (cursor + item.length) rest).size = rest.length * 48 :=
        Order.size_recordBytes _ _
      have next : Layout.recordAt (index + 1) = Layout.recordAt index + record.size := by
        simp only [Layout.recordAt, Layout.recordSize, recordSize]
        omega
      have last : Layout.recordAt (index + (rest.length + 1)) =
          Layout.recordAt index + (48 + rest.length * 48) := by
        simp only [Layout.recordAt, Layout.recordSize]
        omega
      rw [List.length_cons] at few apart
      have stringsRoom : cursor + strings.size ≤ buffer.size := by omega
      have stringsKept := Bytes.size_splice stringsRoom
      have recordRoom : Layout.recordAt index + record.size ≤
          (splice buffer cursor strings).size := by omega
      have kept : after.size = buffer.size := (Bytes.size_splice recordRoom).trans stringsKept
      have packed : splice (splice after (Layout.recordAt index + record.size)
          (recordBytes (cursor + item.length) rest)) (cursor + strings.size) (stringBytes rest) =
            splice (splice buffer (Layout.recordAt index) (recordBytes cursor (item :: rest)))
              cursor (stringBytes (item :: rest)) :=
        Bytes.splice_alternating (by omega) (by omega)
      rw [stringsSize, ← next] at packed
      have behind : Layout.recordAt (index + 1 + rest.length) ≤ cursor + item.length := by
        rw [Nat.add_assoc, Nat.add_comm 1]
        omega
      have first : items index cursor (item :: rest) buffer =
          items (index + 1) (cursor + item.length) rest after :=
        items_cons (by omega) (by simp only [Layout.recordSize]; omega) (by omega)
      rw [first, ih (by omega) behind (by omega), packed, total, Nat.add_assoc]

/-! ## Whole orders -/

/-- Three pieces behind each other, which fill what they are spliced into. -/
theorem splice_three {first second third : ByteArray}
    (exact : first.size + second.size + third.size = buffer.size) :
    splice (splice (splice buffer 0 first) first.size second) (first.size + second.size) third =
      first ++ second ++ third := by
  have joined : (first ++ second).size = first.size + second.size := ByteArray.size_append
  have front : splice (splice buffer 0 first) (0 + first.size) second =
      splice buffer 0 (first ++ second) := Bytes.splice_append (by omega)
  have all : splice (splice buffer 0 (first ++ second)) (0 + (first ++ second).size) third =
      splice buffer 0 (first ++ second ++ third) := Bytes.splice_append (by omega)
  rw [Nat.zero_add] at front all
  rw [front, ← joined, all, Bytes.splice_whole (by rw [ByteArray.size_append, joined, exact])]

/-- The job status word goes right behind the header. -/
theorem put_jobStatus {header : Header} (fits : header.blob.Fits)
    (long : Layout.headerSize ≤ buffer.size) :
    put Layout.jobStatusAt (jobWord .inProgress) (splice buffer 0 header.image) =
      (.ok (), splice buffer 0 (header.image ++ jobWord .inProgress)) := by
  have size : header.image.size = Layout.jobStatusAt := Header.size_image fits
  have wordSize : (jobWord .inProgress).size = 4 := size_encode _ _
  have room : Layout.jobStatusAt + 4 ≤ buffer.size := long
  have kept : (splice buffer 0 header.image).size = buffer.size := Bytes.size_splice (by omega)
  have joined : splice (splice buffer 0 header.image) (0 + header.image.size)
      (jobWord .inProgress) = splice buffer 0 (header.image ++ jobWord .inProgress) :=
    Bytes.splice_append (by omega)
  rw [Nat.zero_add, size] at joined
  rw [put_eq (by omega), joined]

/-- Header, job status word, records and strings are the image. -/
theorem splice_image (valid : order.Valid) (exact : buffer.size =
    Layout.regionLength order.items.length order.stringsLength) :
    splice (splice (splice buffer 0 (order.planHeader.image ++ jobWord .inProgress))
      (Layout.recordAt 0) (recordBytes (Layout.stringsAt order.items.length) order.items))
      (Layout.stringsAt order.items.length) (stringBytes order.items) = order.image := by
  let head := order.planHeader.image ++ jobWord .inProgress
  let records := recordBytes (Layout.stringsAt order.items.length) order.items
  have frontSize : order.planHeader.image.size = 1596 := Header.size_image valid.header
  have wordSize : (jobWord .inProgress).size = 4 := size_encode _ _
  have headSize : head.size = Layout.recordAt 0 := by
    rw [ByteArray.size_append, frontSize, wordSize]
    rfl
  have recordsSize : records.size = order.items.length * 48 := Order.size_recordBytes _ _
  have stringsSize : (stringBytes order.items).size = order.stringsLength :=
    Order.size_stringBytes _
  have base : head.size + records.size = Layout.stringsAt order.items.length := by
    rw [headSize, recordsSize]
    rfl
  have filled : splice (splice (splice buffer 0 head) head.size records)
      (head.size + records.size) (stringBytes order.items) =
        head ++ records ++ stringBytes order.items :=
    splice_three (by rw [base, stringsSize, exact, Layout.regionLength])
  rw [base, headSize] at filled
  rw [filled, Order.image_eq, ByteArray.append_assoc, ByteArray.append_assoc]

/-- A valid order replaces all that a buffer of the right length holds. -/
theorem order_eq (valid : order.Valid)
    (exact : buffer.size = Layout.regionLength order.items.length order.stringsLength) :
    InPlace.order order buffer = (.ok (), order.image) := by
  let start := Layout.stringsAt order.items.length
  have fits : order.planHeader.blob.Fits := valid.header
  have size : start + lengthOf order.items = buffer.size := exact.symm
  have long : Layout.headerSize ≤ buffer.size := by
    rw [exact, regionLength_literal, Layout.headerSize]
    omega
  have counted : (UInt32.ofNat order.items.length).toNat = order.items.length :=
    UInt32.toNat_ofNat_of_lt valid.count
  have headSize : (order.planHeader.image ++ jobWord .inProgress).size = Layout.headerSize := by
    rw [ByteArray.size_append, Header.size_image fits, jobWord, size_encode]
    rfl
  have headKept : (splice buffer 0 (order.planHeader.image ++ jobWord .inProgress)).size =
      buffer.size := Bytes.size_splice (by omega)
  have measured : InPlace.size buffer = (.ok buffer.size, buffer) := rfl
  have headerDone : header { order.header with transferCount := UInt32.ofNat order.items.length }
      buffer = (.ok (), splice buffer 0 order.planHeader.image) := header_eq long fits
  have passed : items 0 start order.items
      (splice buffer 0 (order.planHeader.image ++ jobWord .inProgress)) =
        (.ok buffer.size, order.image) := by
    have few : 0 + order.items.length < UInt32.size := by
      rw [Nat.zero_add]
      exact valid.count
    have slots : Layout.recordAt (0 + order.items.length) ≤ start := by
      rw [Nat.zero_add]
      exact Nat.le_refl _
    rw [items_eq few slots (by omega), splice_image valid exact, size]
  rw [InPlace.order, ok_then (check_ok (Order.validate_eq_ok_iff.2 valid)),
    ok_then (check_ok (Order.count_eq_ok valid.count)),
    ok_then (check_ok (Order.regionLength_eq valid)), ok_then measured,
    if_neg (fun differs => differs exact), ok_then headerDone, ok_then (put_jobStatus fits long),
    counted, ok_then passed, if_neg (fun differs => differs rfl)]
  rfl

theorem order_refused {fault : Fault} (refused : order.validate = .error fault) :
    InPlace.order order buffer = (.error (.fault fault), buffer) :=
  error_then (check_error refused)

theorem order_uneven (valid : order.Valid) {needed : Nat}
    (long : order.regionLength = .ok needed) (differs : buffer.size ≠ needed) :
    InPlace.order order buffer = (.error (.fault (.truncated buffer.size needed)), buffer) := by
  have measured : InPlace.size buffer = (.ok buffer.size, buffer) := rfl
  rw [InPlace.order, ok_then (check_ok (Order.validate_eq_ok_iff.2 valid)),
    ok_then (check_ok (Order.count_eq_ok valid.count)), ok_then (check_ok long),
    ok_then measured, if_pos differs]
  rfl

/-- The three ways in which laying out an order ends. -/
theorem order_cases (order : Order) (buffer : ByteArray) :
    (∃ fault, order.validate = .error fault ∧
      InPlace.order order buffer = (.error (.fault fault), buffer)) ∨
    (∃ needed, order.validate = .ok () ∧ order.regionLength = .ok needed ∧
      buffer.size ≠ needed ∧
      InPlace.order order buffer = (.error (.fault (.truncated buffer.size needed)), buffer)) ∨
    (order.validate = .ok () ∧ order.regionLength = .ok buffer.size ∧
      InPlace.order order buffer = (.ok (), order.image)) := by
  cases checked : order.validate with
  | error fault => exact .inl ⟨fault, rfl, order_refused checked⟩
  | ok _ =>
      have valid := Order.validate_eq_ok_iff.1 checked
      have long := Order.regionLength_eq valid
      by_cases exact : buffer.size = Layout.regionLength order.items.length order.stringsLength
      · exact .inr (.inr ⟨rfl, by rw [long, exact], order_eq valid exact⟩)
      · exact .inr (.inl ⟨_, rfl, long, exact, order_uneven valid long exact⟩)

theorem order_matches (order : Order) (buffer : ByteArray) :
    Matches (order.writeTo buffer) buffer (InPlace.order order buffer) := by
  rcases order_cases order buffer with ⟨fault, checked, refused⟩ |
    ⟨needed, checked, long, differs, refused⟩ | ⟨checked, long, done⟩
  · rw [Order.writeTo, checked, error_bind]
    exact refused
  · rw [Order.writeTo, checked, ok_bind, long, ok_bind, if_pos differs]
    exact refused
  · rw [Order.writeTo, checked, ok_bind, long, ok_bind, if_neg (fun differs => differs rfl)]
    exact done

end InPlace

namespace Order

variable {order : Order} {items : List Item} {item : Item} {index other position : Nat}

/-! ## The first fault of an order -/

/-- The fault of a path string that no record can describe. -/
def overlong (index : Nat) (string : String) : List Fault :=
  if 65535 < string.utf8ByteSize then [.stringTooLong index string.utf8ByteSize] else []

/-- Every text and every path string that is too long: those of the header, and then source and
destination of each item. -/
def oversized (order : Order) : List Fault :=
  order.header.blob.oversized ++
    order.items.zipIdx.flatMap fun (item, index) =>
      overlong index item.source ++ overlong index item.destination

theorem Item.validate_eq_firstOf (item : Item) (index : Nat) :
    item.validate index =
      firstOf (overlong index item.source ++ overlong index item.destination) := by
  unfold Item.validate overlong Layout.stringCapacity
  split
  · rfl
  · split
    · rfl
    · rfl

theorem validateItems_eq_firstOf (index : Nat) (items : List Item) :
    validateItems index items = firstOf ((items.zipIdx index).flatMap fun (item, index) =>
      overlong index item.source ++ overlong index item.destination) := by
  induction items generalizing index with
  | nil => rfl
  | cons first rest ih =>
      rw [List.zipIdx_cons, List.flatMap_cons, firstOf_append, ← ih,
        ← Item.validate_eq_firstOf first index, validateItems]
      cases first.validate index with
      | error fault => rfl
      | ok _ => rfl

theorem validate_eq_firstOf (few : order.items.length < UInt32.size) :
    order.validate = firstOf order.oversized := by
  rw [validate, count_eq_ok few, ok_bind, oversized, firstOf_append,
    BlobSettings.validate_eq_firstOf, validateItems_eq_firstOf]

theorem validate_crowded (many : UInt32.size ≤ order.items.length) :
    order.validate = .error (.tooManyTransfers order.items.length) := by
  rw [validate, count, if_neg (Nat.not_lt.2 many), error_bind]

theorem mem_overlong {string : String} {fault : Fault} (raised : fault ∈ overlong index string) :
    ∃ length, fault = .stringTooLong index length := by
  unfold overlong at raised
  split at raised
  · exact ⟨_, List.mem_singleton.1 raised⟩
  · cases raised

/-- Only texts and path strings are too long. -/
theorem mem_oversized {fault : Fault} (raised : fault ∈ order.oversized) :
    (∃ field length capacity, fault = .fieldTooLong field length capacity) ∨
      ∃ index length, fault = .stringTooLong index length := by
  rcases List.mem_append.1 raised with inHeader | inItems
  · exact .inl (BlobSettings.mem_oversized inHeader)
  · obtain ⟨⟨item, index⟩, _, raised⟩ := List.mem_flatMap.1 inItems
    rcases List.mem_append.1 raised with source | destination
    · exact .inr ⟨index, mem_overlong source⟩
    · exact .inr ⟨index, mem_overlong destination⟩

/-- An order is valid if it has few enough transfers, and nothing in it is found too long. -/
theorem validate_eq_ok_iff_not_tooLong :
    order.validate = .ok () ↔ order.items.length < UInt32.size ∧
      (∀ field length capacity, order.validate ≠ .error (.fieldTooLong field length capacity)) ∧
      ∀ index length, order.validate ≠ .error (.stringTooLong index length) := by
  constructor
  · intro valid
    exact ⟨(validate_eq_ok_iff.1 valid).count, by simp [valid], by simp [valid]⟩
  · rintro ⟨few, fields, strings⟩
    rw [validate_eq_firstOf few] at fields strings ⊢
    rw [firstOf_eq_ok_iff]
    cases all : order.oversized with
    | nil => rfl
    | cons fault rest =>
        rw [all] at fields strings
        rcases mem_oversized (all ▸ List.mem_cons_self) with ⟨_, _, _, rfl⟩ | ⟨_, _, rfl⟩
        · exact absurd rfl (fields _ _ _)
        · exact absurd rfl (strings _ _)

/-! ## The ranges of the strings -/

/-- The strings of the item with the index hold the position, counted from the first string. -/
def HoldsAt (items : List Item) (position index : Nat) : Prop :=
  ∃ item, items[index]? = some item ∧ lengthOf (items.take index) ≤ position ∧
    position < lengthOf (items.take index) + item.length

theorem exists_holdsAt (inside : position < lengthOf items) :
    ∃ index, HoldsAt items position index := by
  induction items generalizing position with
  | nil => exact absurd inside (Nat.not_lt_zero _)
  | cons first rest ih =>
      rw [lengthOf_cons] at inside
      by_cases front : position < first.length
      · exact ⟨0, first, rfl, Nat.zero_le _, Nat.lt_of_lt_of_le front (Nat.le_add_left _ _)⟩
      · have later : position - first.length < lengthOf rest := by omega
        obtain ⟨index, item, found, behind, before⟩ := ih later
        refine ⟨index + 1, item, found, ?_, ?_⟩
        · rw [List.take_succ_cons, lengthOf_cons]
          omega
        · rw [List.take_succ_cons, lengthOf_cons]
          omega

theorem HoldsAt.le (here : HoldsAt items position index) (there : HoldsAt items position other) :
    index ≤ other := by
  obtain ⟨item, found, behind, _⟩ := here
  obtain ⟨second, taken, _, before⟩ := there
  by_cases less : other < index
  · have ends := lengthOf_take_succ taken
    have along : lengthOf (items.take (other + 1)) ≤ lengthOf (items.take index) :=
      lengthOf_take_mono less
    omega
  · exact Nat.not_lt.1 less

/-- The descriptor in the record with the index. -/
def described (bytes : ByteArray) (index : Nat) : Descriptor :=
  Descriptor.read (slice bytes (1600 + 48 * index) 32)

/-- The position is in a string of the transfer with the index. -/
def Covers (bytes : ByteArray) (count index position : Nat) : Prop :=
  index < count ∧ (described bytes index).sourceOffset.toNat ≤ position ∧
    position < (described bytes index).stringsEnd

/-- The strings of the order fill the bytes from the last record to the end, one behind the
other, where the records say. -/
structure Tiles (order : Order) (bytes : ByteArray) : Prop where
  empty : order.items = [] → bytes.size = 1600
  first : order.items ≠ [] →
    (described bytes 0).sourceOffset.toNat = 1600 + 48 * order.items.length
  next : ∀ index, index + 1 < order.items.length →
    (described bytes (index + 1)).sourceOffset.toNat = (described bytes index).stringsEnd
  last : ∀ index, index + 1 = order.items.length → (described bytes index).stringsEnd = bytes.size
  lengths : ∀ index item, order.items[index]? = some item →
    (described bytes index).sourceLength.toNat = item.source.utf8ByteSize ∧
    (described bytes index).destinationLength.toNat = item.destination.utf8ByteSize
  strings : ∀ index item, order.items[index]? = some item →
    slice bytes (described bytes index).sourceOffset.toNat item.source.utf8ByteSize =
      item.source.toUTF8 ∧
    slice bytes ((described bytes index).sourceOffset.toNat + item.source.utf8ByteSize)
      item.destination.utf8ByteSize = item.destination.toUTF8
  covered : ∀ position, (∃ index, Covers bytes order.items.length index position) ↔
    1600 + 48 * order.items.length ≤ position ∧ position < bytes.size
  disjoint : ∀ index other position, Covers bytes order.items.length index position →
    Covers bytes order.items.length other position → index = other

theorem described_image (valid : order.Valid) (found : order.items[index]? = some item) :
    described order.image index = item.descriptor (order.sourceOffset index) := by
  have place : 1600 + 48 * index = Layout.recordAt index := by
    rw [Layout.recordAt, Nat.mul_comm]
    rfl
  have written : slice order.image (Layout.recordAt index) 32 =
      (item.descriptor (order.sourceOffset index)).image :=
    slice_image_descriptor valid.header found
  rw [described, place, written, Descriptor.read_image]

theorem stringsEnd_image (valid : order.Valid) (found : order.items[index]? = some item) :
    (described order.image index).stringsEnd = order.sourceOffset (index + 1) := by
  rw [described_image valid found, Descriptor.stringsEnd, valid.toNat_sourceOffset found,
    valid.toNat_sourceLength found, valid.toNat_destinationLength found, sourceOffset,
    sourceOffset, lengthOf_take_succ found, Item.length]
  omega

theorem sourceOffset_length (valid : order.Valid) :
    order.sourceOffset order.items.length = order.image.size := by
  rw [sourceOffset, List.take_length, size_image valid.header]
  rfl

theorem covers_image_iff (valid : order.Valid) :
    Covers order.image order.items.length index position ↔
      1600 + 48 * order.items.length ≤ position ∧
        HoldsAt order.items (position - (1600 + 48 * order.items.length)) index := by
  have base := stringsAt_literal order.items.length
  constructor
  · rintro ⟨known, behind, before⟩
    have found := List.getElem?_eq_getElem known
    rw [stringsEnd_image valid found, sourceOffset, lengthOf_take_succ found] at before
    rw [described_image valid found, valid.toNat_sourceOffset found, sourceOffset] at behind
    exact ⟨by omega, _, found, by omega, by omega⟩
  · rintro ⟨strings, item, found, behind, before⟩
    refine ⟨(List.getElem?_eq_some_iff.1 found).1, ?_, ?_⟩
    · rw [described_image valid found, valid.toNat_sourceOffset found, sourceOffset]
      omega
    · rw [stringsEnd_image valid found, sourceOffset, lengthOf_take_succ found]
      omega

theorem tiles_image (valid : order.Valid) : order.Tiles order.image where
  empty none := by
    rw [size_image valid.header, regionLength_literal, stringsLength, none]
    rfl
  first some := by
    have found := List.getElem?_eq_getElem (List.length_pos_iff.2 some)
    rw [described_image valid found, valid.toNat_sourceOffset found, sourceOffset,
      stringsAt_literal, List.take_zero]
    rfl
  next index inside := by
    have found := List.getElem?_eq_getElem inside
    have before := List.getElem?_eq_getElem (Nat.lt_of_succ_lt inside)
    rw [described_image valid found, valid.toNat_sourceOffset found,
      stringsEnd_image valid before]
  last index ends := by
    have inside : index < order.items.length := by omega
    have found := List.getElem?_eq_getElem inside
    rw [stringsEnd_image valid found, ends, sourceOffset_length valid]
  lengths index item found := by
    rw [described_image valid found]
    exact ⟨valid.toNat_sourceLength found, valid.toNat_destinationLength found⟩
  strings index item found := by
    rw [described_image valid found, valid.toNat_sourceOffset found]
    exact ⟨slice_image_source valid.header found, slice_image_destination valid.header found⟩
  covered position := by
    have size := size_image valid.header
    rw [regionLength_literal] at size
    have total : order.stringsLength = lengthOf order.items := rfl
    simp only [covers_image_iff valid]
    constructor
    · rintro ⟨index, behind, item, found, front, before⟩
      have inside := lengthOf_take_add_le found
      exact ⟨behind, by omega⟩
    · rintro ⟨behind, before⟩
      obtain ⟨index, holds⟩ := exists_holdsAt
        (show position - (1600 + 48 * order.items.length) < lengthOf order.items by omega)
      exact ⟨index, behind, holds⟩
  disjoint index other position here there := by
    have holds := ((covers_image_iff valid).1 here).2
    have holdsToo := ((covers_image_iff valid).1 there).2
    exact Nat.le_antisymm (holds.le holdsToo) (holdsToo.le holds)

end Order

namespace InPlace

/-- An order is laid out in whole or not at all, over whatever the buffer held. -/
theorem order_exact (order : Order) :
    (∀ buffer, (∃ after, InPlace.order order buffer = (.ok (), after)) ↔
      order.validate = .ok () ∧ order.regionLength = .ok buffer.size) ∧
    (∀ buffer reason after, InPlace.order order buffer = (.error reason, after) →
      after = buffer ∧
      ((∃ fault, order.validate = .error fault ∧ reason = .fault fault) ∨
        ∃ needed, order.validate = .ok () ∧ order.regionLength = .ok needed ∧
          buffer.size ≠ needed ∧ reason = .fault (.truncated buffer.size needed))) ∧
    (order.items.length < 2 ^ 32 → order.validate = firstOf order.oversized) ∧
    (2 ^ 32 ≤ order.items.length →
      order.validate = .error (.tooManyTransfers order.items.length)) ∧
    (order.validate = .ok () → ∃ bytes, order.Tiles bytes ∧ order.regionLength = .ok bytes.size ∧
      ∀ buffer, buffer.size = bytes.size → InPlace.order order buffer = (.ok (), bytes)) ∧
    ∀ buffer, Matches (order.writeTo buffer) buffer (InPlace.order order buffer) := by
  refine ⟨fun buffer => ⟨?_, ?_⟩, fun buffer reason after failed => ?_, Order.validate_eq_firstOf,
    Order.validate_crowded, fun checked => ?_, order_matches order⟩
  · rintro ⟨after, done⟩
    rcases order_cases order buffer with ⟨_, _, refused⟩ | ⟨_, _, _, _, refused⟩ |
      ⟨checked, long, _⟩
    · rw [refused] at done
      cases done
    · rw [refused] at done
      cases done
    · exact ⟨checked, long⟩
  · rintro ⟨checked, long⟩
    have valid := Order.validate_eq_ok_iff.1 checked
    rw [Order.regionLength_eq valid] at long
    exact ⟨order.image, order_eq valid (Except.ok.inj long).symm⟩
  · rcases order_cases order buffer with ⟨fault, checked, refused⟩ |
      ⟨needed, checked, long, differs, refused⟩ | ⟨_, _, done⟩
    · rw [refused] at failed
      cases failed
      exact ⟨rfl, .inl ⟨fault, checked, rfl⟩⟩
    · rw [refused] at failed
      cases failed
      exact ⟨rfl, .inr ⟨needed, checked, long, differs, rfl⟩⟩
    · rw [done] at failed
      cases failed
  · have valid := Order.validate_eq_ok_iff.1 checked
    have size := Order.size_image valid.header
    refine ⟨order.image, Order.tiles_image valid, ?_, fun buffer same => ?_⟩
    · rw [size, Order.regionLength_eq valid]
    · exact order_eq valid (same.trans size)

/-- Two transfers, laid out over bytes of another plan. -/
theorem order_exact_twoItems :
    let order : Order := {
      items := [{ source := "/a/b.txt", destination := "container/b.txt" },
        { source := "/c", destination := "d" }] }
    let buffer : ByteArray := ⟨Array.replicate 1722 0xAA⟩
    ∃ after, InPlace.order order buffer = (.ok (), after) ∧ order.Tiles after := by
  intro order buffer
  have size : buffer.size = 1722 := Array.size_replicate
  obtain ⟨bytes, tiles, long, laid⟩ := (order_exact order).2.2.2.2.1 rfl
  have exact : order.regionLength = .ok 1722 := rfl
  rw [exact] at long
  exact ⟨bytes, laid buffer (size.trans (Except.ok.inj long)), tiles⟩

/-- One transfer too many is found before a tier that is too long. -/
theorem not_firstOf_oversized :
    let order : Order := {
      header := { blob := { blockBlobTier := "hot and cool" } }
      items := List.replicate UInt32.size {} }
    firstOf order.oversized = .error (.fieldTooLong "block blob tier" 12 10) ∧
      order.validate = .error (.tooManyTransfers UInt32.size) ∧
      InPlace.order order .empty = (.error (.fault (.tooManyTransfers UInt32.size)), .empty) := by
  intro order
  have length : order.items.length = UInt32.size := List.length_replicate
  have crowded : order.validate = .error (.tooManyTransfers UInt32.size) := by
    rw [Order.validate_crowded (Nat.le_of_eq length.symm), length]
  have first : firstOf order.header.blob.oversized =
      .error (.fieldTooLong "block blob tier" 12 10) := by rfl
  refine ⟨?_, crowded, order_refused crowded⟩
  rw [Order.oversized, firstOf_append, first, error_bind]

end InPlace

end TransferLedger.Plan
