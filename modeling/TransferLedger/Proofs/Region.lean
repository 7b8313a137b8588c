import TransferLedger.Proofs.Layout

namespace TransferLedger.Plan

open Bytes (slice splice slice_slice slice_eq_of_each slice_splice_of_apart size_splice)

/-! What is read from the parts of a region that no update writes to.

Only the job status word and the ends of the records are ever written.  All that
is read from the rest of the region is what the order laid there.
-/

namespace Layout

variable {count index : Nat}

theorem recordAt_le_stringsAt (inside : index < count) :
    recordAt index + recordSize ≤ stringsAt count := by
  simp only [stringsAt, recordAt, headerSize, recordSize]
  omega

end Layout

theorem stringsAt_literal (count : Nat) : Layout.stringsAt count = 1600 + 48 * count := by
  rw [Layout.stringsAt, Layout.recordAt, Nat.mul_comm]
  rfl

theorem regionLength_literal (count strings : Nat) :
    Layout.regionLength count strings = 1600 + 48 * count + strings := by
  rw [Layout.regionLength, stringsAt_literal]

namespace Region

variable {region before middle after : Region} {order : Order} {item : Order.Item}
variable {index other count : UInt32} {patch : ByteArray} {offset length position : Nat}
variable {touched more : Nat → Prop}

/-! ## Updates and positions -/

/-- The regions have the same count and, but at the touched positions, the same bytes. -/
structure SameBut (touched : Nat → Prop) (before after : Region) : Prop where
  count : after.count = before.count
  size : after.bytes.size = before.bytes.size
  bytes : ∀ position, ¬ touched position →
    slice after.bytes position 1 = slice before.bytes position 1

theorem SameBut.refl (touched : Nat → Prop) (region : Region) : region.SameBut touched region :=
  ⟨rfl, rfl, fun _ _ => rfl⟩

theorem SameBut.trans (first : before.SameBut touched middle)
    (second : middle.SameBut touched after) : before.SameBut touched after :=
  ⟨second.count.trans first.count, second.size.trans first.size,
    fun position clear => (second.bytes position clear).trans (first.bytes position clear)⟩

theorem SameBut.mono (same : before.SameBut touched after)
    (wider : ∀ position, touched position → more position) : before.SameBut more after :=
  ⟨same.count, same.size, fun position clear => same.bytes position (mt (wider position) clear)⟩

theorem SameBut.slice_eq (same : before.SameBut touched after)
    (clear : ∀ position, offset ≤ position → position < offset + length → ¬ touched position) :
    slice after.bytes offset length = slice before.bytes offset length :=
  slice_eq_of_each fun position behind front => same.bytes position (clear position behind front)

theorem sameBut_splice (within : offset + patch.size ≤ region.bytes.size) :
    region.SameBut (fun position => offset ≤ position ∧ position < offset + patch.size)
      { region with bytes := splice region.bytes offset patch } := by
  refine ⟨rfl, size_splice within, fun position clear => ?_⟩
  refine slice_splice_of_apart within ?_
  simp only [Bytes.Apart]
  omega

/-- The position is in the status word of the job. -/
def JobWord (position : Nat) : Prop :=
  1596 ≤ position ∧ position < 1600

/-- The position is in the completion time or in the status of a transfer. -/
def TransferWords (index : UInt32) (position : Nat) : Prop :=
  1600 + 48 * index.toNat + 32 ≤ position ∧ position < 1600 + 48 * index.toNat + 44

/-- The position is in a word of a region with so many transfers. -/
def Word (count : UInt32) (position : Nat) : Prop :=
  JobWord position ∨ ∃ index, index < count ∧ TransferWords index position

theorem transferWords_apart (different : other ≠ index) (here : TransferWords index position) :
    ¬ TransferWords other position := by
  have apart : other.toNat ≠ index.toNat := fun same => different (UInt32.toNat_inj.1 same)
  simp only [TransferWords] at here ⊢
  omega

theorem not_jobWord_of_transferWords (here : TransferWords index position) :
    ¬ JobWord position := by
  simp only [TransferWords, JobWord] at here ⊢
  omega

theorem SameBut.words (same : before.SameBut (TransferWords index) after)
    (known : index < before.count) : before.SameBut (Word before.count) after :=
  same.mono fun _ inside => Or.inr ⟨index, known, inside⟩

/-! The immutable parts of a region have no words in them. -/

theorem not_word_header (front : position < Layout.jobStatusAt) : ¬ Word count position := by
  simp only [Word, JobWord, TransferWords, Layout.jobStatusAt] at front ⊢
  rintro (job | ⟨index, _, behind, _⟩) <;> omega

theorem not_word_descriptor {index : Nat} (behind : Layout.recordAt index ≤ position)
    (front : position < Layout.recordAt index + Layout.completionTimeAt) :
    ¬ Word count position := by
  simp only [Word, JobWord, TransferWords, Layout.recordAt, Layout.headerSize,
    Layout.recordSize, Layout.completionTimeAt] at behind front ⊢
  rintro (job | ⟨other, _, first, last⟩) <;> omega

theorem not_word_behind (behind : Layout.stringsAt count.toNat ≤ position) :
    ¬ Word count position := by
  rw [stringsAt_literal] at behind
  simp only [Word, JobWord, TransferWords]
  rintro (job | ⟨index, known, _, last⟩)
  · omega
  · have counted := UInt32.lt_iff_toNat_lt.1 known
    omega

/-! ## Records and strings -/

theorem read_eq (within : offset + length ≤ region.bytes.size) :
    region.read offset length = .ok (slice region.bytes offset length) :=
  if_pos within

/-- The region has room for all the records that it counts. -/
def Whole (region : Region) : Prop :=
  Layout.stringsAt region.count.toNat ≤ region.bytes.size

theorem Whole.room (whole : region.Whole) (known : index < region.count) :
    Layout.recordAt index.toNat + Layout.recordSize ≤ region.bytes.size :=
  Nat.le_trans (Layout.recordAt_le_stringsAt (UInt32.lt_iff_toNat_lt.1 known)) whole

theorem Whole.record_eq (whole : region.Whole) (known : index < region.count) :
    region.record index = .ok {
      index
      descriptor := Descriptor.read
        (slice region.bytes (Layout.recordAt index.toNat) Layout.completionTimeAt) } := by
  have room := whole.room known
  simp only [Layout.recordSize] at room
  simp only [record, if_neg (UInt32.not_le.2 known), completionTimeAt, transferStatusAt]
  rw [read_eq (by simp only [Layout.completionTimeAt]; omega),
    read_eq (by simp only [Layout.completionTimeAt]; omega),
    read_eq (by simp only [Layout.transferStatusAt]; omega)]
  simp only [ok_bind]

/-- The region has everything that updates do not touch as the order laid it. -/
structure Keeps (order : Order) (region : Region) : Prop where
  count : region.count.toNat = order.items.length
  size : region.bytes.size = order.image.size
  header : slice region.bytes 0 Layout.jobStatusAt = slice order.image 0 Layout.jobStatusAt
  descriptors : ∀ index < order.items.length,
    slice region.bytes (Layout.recordAt index) Layout.completionTimeAt =
      slice order.image (Layout.recordAt index) Layout.completionTimeAt
  strings : ∀ offset length, Layout.stringsAt order.items.length ≤ offset →
    slice region.bytes offset length = slice order.image offset length

def ofOrder (order : Order) : Region where
  count := UInt32.ofNat order.items.length
  bytes := order.image

theorem keeps_ofOrder (valid : order.Valid) : Keeps order (ofOrder order) where
  count := UInt32.toNat_ofNat_of_lt valid.count
  size := rfl
  header := rfl
  descriptors _ _ := rfl
  strings _ _ _ := rfl

theorem Keeps.size_eq (kept : region.Keeps order) (valid : order.Valid) :
    region.bytes.size = Layout.regionLength order.items.length order.stringsLength :=
  kept.size.trans (Order.size_image valid.header)

theorem Keeps.room (kept : region.Keeps order) (valid : order.Valid) :
    Layout.stringsAt order.items.length ≤ region.bytes.size := by
  rw [kept.size_eq valid]
  exact Nat.le_add_right _ _

theorem Keeps.whole (kept : region.Keeps order) (valid : order.Valid) : region.Whole := by
  rw [Whole, kept.count]
  exact kept.room valid

theorem Keeps.inside (kept : region.Keeps order) (known : index < region.count) :
    index.toNat < order.items.length :=
  kept.count ▸ UInt32.lt_iff_toNat_lt.1 known

theorem Keeps.known (kept : region.Keeps order) (found : order.items[index.toNat]? = some item) :
    index < region.count := by
  rw [UInt32.lt_iff_toNat_lt, kept.count]
  exact (List.getElem?_eq_some_iff.1 found).1

theorem SameBut.slice_header (same : before.SameBut (Word before.count) after) :
    slice after.bytes 0 Layout.jobStatusAt = slice before.bytes 0 Layout.jobStatusAt :=
  same.slice_eq fun _ _ front => not_word_header (Nat.zero_add Layout.jobStatusAt ▸ front)

theorem SameBut.slice_descriptor (same : before.SameBut (Word before.count) after) (index : Nat) :
    slice after.bytes (Layout.recordAt index) Layout.completionTimeAt =
      slice before.bytes (Layout.recordAt index) Layout.completionTimeAt :=
  same.slice_eq fun _ => not_word_descriptor

theorem SameBut.slice_behind (same : before.SameBut (Word before.count) after)
    (behind : Layout.stringsAt before.count.toNat ≤ offset) (length : Nat) :
    slice after.bytes offset length = slice before.bytes offset length :=
  same.slice_eq fun _ inside _ => not_word_behind (Nat.le_trans behind inside)

/-- What keeps all but the words keeps what an order laid. -/
theorem SameBut.keeps {order : Order} (same : before.SameBut (Word before.count) after)
    (kept : before.Keeps order) : after.Keeps order where
  count := (congrArg UInt32.toNat same.count).trans kept.count
  size := same.size.trans kept.size
  header := same.slice_header.trans kept.header
  descriptors index inside := (same.slice_descriptor index).trans (kept.descriptors index inside)
  strings start length behind :=
    (same.slice_behind (kept.count ▸ behind) length).trans (kept.strings start length behind)

theorem getElem?_indices {place : Nat} :
    (indices count)[place]? = some index ↔ place = index.toNat ∧ index < count := by
  rw [indices, List.getElem?_map, Option.map_eq_some_iff]
  constructor
  · rintro ⟨number, found, rfl⟩
    obtain ⟨inside, same⟩ := List.getElem?_eq_some_iff.1 found
    rw [List.getElem_range] at same
    rw [List.length_range] at inside
    subst same
    have small : (UInt32.ofNat place).toNat = place :=
      UInt32.toNat_ofNat_of_lt (Nat.lt_trans inside count.toNat_lt)
    exact ⟨small.symm, UInt32.lt_iff_toNat_lt.2 (by rwa [small])⟩
  · rintro ⟨rfl, known⟩
    exact ⟨index.toNat, List.getElem?_range (UInt32.lt_iff_toNat_lt.1 known), UInt32.ofNat_toNat⟩

/-! An operation on every transfer ends at the first one on which it fails. -/

section

variable {ε β : Type} {operation : UInt32 → Except ε β} {results : List β} {fault : ε}

theorem mapM_indices_eq_ok_iff :
    (indices count).mapM operation = .ok results ↔ results.length = count.toNat ∧
      ∀ index < count, ∃ result, results[index.toNat]? = some result ∧
        operation index = .ok result := by
  have length : (indices count).length = count.toNat := by
    rw [indices, List.length_map, List.length_range]
  rw [mapM_eq_ok_iff, length]
  refine and_congr_right fun _ => ⟨fun each index known => ?_, fun each place index found => ?_⟩
  · exact each index.toNat index (getElem?_indices.2 ⟨rfl, known⟩)
  · obtain ⟨rfl, known⟩ := getElem?_indices.1 found
    exact each index known

theorem mapM_indices_eq_error_iff :
    (indices count).mapM operation = .error fault ↔ ∃ index, index < count ∧
      operation index = .error fault ∧ ∀ other < index, ∃ result, operation other = .ok result := by
  rw [mapM_eq_error_iff]
  constructor
  · intro ⟨place, index, found, failed, before⟩
    obtain ⟨rfl, known⟩ := getElem?_indices.1 found
    refine ⟨index, known, failed, fun other less => ?_⟩
    exact before other.toNat other (UInt32.lt_iff_toNat_lt.1 less)
      (getElem?_indices.2 ⟨rfl, UInt32.lt_trans less known⟩)
  · intro ⟨index, known, failed, before⟩
    refine ⟨index.toNat, index, getElem?_indices.2 ⟨rfl, known⟩, failed,
      fun earlier other less found => ?_⟩
    obtain ⟨rfl, _⟩ := getElem?_indices.1 found
    exact before other (UInt32.lt_iff_toNat_lt.2 less)

end

/-! ## Reading -/

theorem Keeps.header_eq (kept : region.Keeps order) (valid : order.Valid) :
    region.header = .ok order.planHeader := by
  have long : Layout.jobStatusAt ≤ order.image.size := by
    have size := kept.size
    have room := kept.room valid
    simp only [Layout.stringsAt, Layout.recordAt, Layout.headerSize, Layout.jobStatusAt] at room ⊢
    omega
  have within : 0 + Layout.jobStatusAt ≤ region.bytes.size := by
    rw [kept.size, Nat.zero_add]
    exact long
  rw [Region.header, read_eq within, kept.header, ok_bind, Header.read_slice long]
  exact Header.read_of_carried valid.header long (Order.carried_image valid.header)

theorem Keeps.ofBytes_eq (kept : region.Keeps order) (valid : order.Valid) :
    ofBytes region.bytes = .ok region := by
  have room := kept.room valid
  have enough : ¬ region.bytes.size < Layout.headerSize := by
    simp only [Layout.stringsAt, Layout.recordAt] at room
    omega
  have long : Layout.jobStatusAt ≤ region.bytes.size := by
    simp only [Layout.headerSize, Layout.jobStatusAt] at enough ⊢
    omega
  have read : Header.read region.bytes = .ok order.planHeader := by
    rw [← Header.read_slice long]
    have header := kept.header_eq valid
    rwa [Region.header, read_eq (by omega), ok_bind] at header
  have count : order.planHeader.transferCount = region.count := by
    apply UInt32.toNat_inj.1
    rw [kept.count]
    exact UInt32.toNat_ofNat_of_lt valid.count
  have whole : ¬ region.bytes.size < Layout.stringsAt region.count.toNat := by
    rw [kept.count]
    omega
  simp only [ofBytes, if_neg enough, read, count, if_neg whole, ok_bind]

theorem record_eq_error (unknown : region.count ≤ index) :
    region.record index = .error (.indexOutOfRange index region.count) :=
  if_pos unknown

theorem strings_eq_error (unknown : region.count ≤ index) :
    region.strings index = .error (.indexOutOfRange index region.count) := by
  rw [Region.strings, record_eq_error unknown, error_bind]

theorem record_eq_ok_iff (whole : region.Whole) :
    (∃ record, region.record index = .ok record) ↔ index < region.count := by
  constructor
  · rintro ⟨record, taken⟩
    by_cases known : index < region.count
    · exact known
    · rw [record_eq_error (UInt32.not_lt.1 known)] at taken
      cases taken
  · intro known
    exact ⟨_, whole.record_eq known⟩

theorem index_of_record {record : Record} (whole : region.Whole)
    (taken : region.record index = .ok record) : index < region.count ∧ record.index = index := by
  have known := (record_eq_ok_iff whole).1 ⟨record, taken⟩
  rw [whole.record_eq known] at taken
  cases taken
  exact ⟨known, rfl⟩

theorem Keeps.record_eq (kept : region.Keeps order) (valid : order.Valid)
    (found : order.items[index.toNat]? = some item) :
    region.record index =
      .ok { index, descriptor := item.descriptor (order.sourceOffset index.toNat) } := by
  have inside := (List.getElem?_eq_some_iff.1 found).1
  rw [(kept.whole valid).record_eq (kept.known found), kept.descriptors _ inside,
    Order.slice_image_descriptor valid.header found, Descriptor.read_image]

theorem Keeps.strings_eq (kept : region.Keeps order) (valid : order.Valid)
    (found : order.items[index.toNat]? = some item) :
    region.strings index = .ok (item.source, item.destination) := by
  have inside := Order.lengthOf_take_add_le found
  have behind : Layout.stringsAt order.items.length ≤ order.sourceOffset index.toNat :=
    Nat.le_add_right _ _
  have notBefore : ¬ order.sourceOffset index.toNat < Layout.stringsAt region.count.toNat := by
    rw [kept.count]
    omega
  have room : order.sourceOffset index.toNat + item.length ≤ region.bytes.size := by
    rw [kept.size_eq valid, Order.sourceOffset, Nat.add_assoc]
    exact Nat.add_le_add_left inside _
  rw [Order.Item.length] at room
  have source : slice region.bytes (order.sourceOffset index.toNat) item.source.utf8ByteSize =
      item.source.toUTF8 :=
    (kept.strings _ _ behind).trans (Order.slice_image_source valid.header found)
  have destination : slice region.bytes
      (order.sourceOffset index.toNat + item.source.utf8ByteSize)
      item.destination.utf8ByteSize = item.destination.toUTF8 :=
    (kept.strings _ _ (Nat.le_add_right_of_le behind)).trans
      (Order.slice_image_destination valid.header found)
  simp only [Region.strings, kept.record_eq valid found, ok_bind, valid.toNat_sourceOffset found,
    valid.toNat_sourceLength found, valid.toNat_destinationLength found, if_neg notBefore]
  rw [read_eq (by omega), read_eq (by omega), source, destination]
  simp only [ok_bind, text, Text.Utf8.decode_toUTF8, mapError_ok]

end Region

end TransferLedger.Plan
