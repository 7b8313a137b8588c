import TransferLedger.Proofs.Region

namespace TransferLedger.Plan

open Bytes (slice splice Apart slice_slice slice_splice_of_apart slice_splice_self size_splice)
open Bytes.LittleEndian (encode decode size_encode)

/-! The words of a region that updates write to: the status of the job, and the
status and the completion time of each transfer.

An update is seen in the word that it names and in no other.
-/

namespace Region

variable {region after : Region} {order : Order} {item : Order.Item} {index other : UInt32}

/-! ## Reading -/

/-- The part of the region in which the words of a transfer stand. -/
def Holds (region : Region) (index : UInt32) : Prop :=
  Layout.recordAt index.toNat + Layout.recordSize ≤ region.bytes.size

theorem Keeps.holds (kept : region.Keeps order) (valid : order.Valid)
    (known : index < region.count) : region.Holds index :=
  Nat.le_trans (Layout.recordAt_le_stringsAt (kept.inside known)) (kept.room valid)

theorem Holds.status (held : region.Holds index) (status : TransferStatus) :
    transferStatusAt index + (transferWord status).size ≤ region.bytes.size := by
  simp only [Holds, Layout.recordSize] at held
  simp only [transferStatusAt, Layout.transferStatusAt, transferWord, size_encode]
  omega

theorem Holds.completion (held : region.Holds index) (nanos : UInt64) :
    completionTimeAt index + (encode 8 nanos.toNat).size ≤ region.bytes.size := by
  simp only [Holds, Layout.recordSize] at held
  simp only [completionTimeAt, Layout.completionTimeAt, size_encode]
  omega

theorem decode_jobWord (status : JobStatus) : (decode (jobWord status) : Int) = status.code := by
  cases status <;> rfl

theorem decode_transferWord (status : TransferStatus) :
    (UInt32.ofNat (decode (transferWord status))).toInt32.toInt = status.code := by
  cases status <;> rfl

theorem jobStatus_of_slice {status : JobStatus} (long : Layout.headerSize ≤ region.bytes.size)
    (written : slice region.bytes Layout.jobStatusAt 4 = jobWord status) :
    region.jobStatus = .ok status := by
  have within : Layout.jobStatusAt + 4 ≤ region.bytes.size := long
  rw [jobStatus, read_eq within, written, ok_bind]
  exact known_code (decode_jobWord status)

theorem transferStatus_of_slice {status : TransferStatus}
    (written : slice region.bytes (transferStatusAt index) 4 = transferWord status) :
    region.transferStatus index = .ok status := by
  rw [transferStatus, statusCode, written]
  exact known_code (decode_transferWord status)

theorem transferStatus_congr {other : Region}
    (same : slice region.bytes (transferStatusAt index) 4 =
      slice other.bytes (transferStatusAt index) 4) :
    region.transferStatus index = other.transferStatus index := by
  rw [transferStatus, transferStatus, statusCode, statusCode, same]

theorem transferStatus_putStatus_self (held : region.Holds index) (status : TransferStatus) :
    (region.putStatus index status).transferStatus index = .ok status := by
  have written := slice_splice_self (held.status status)
  rw [transferWord, size_encode, ← transferWord] at written
  exact transferStatus_of_slice written

theorem transferStatus_putStatus_of_ne (held : region.Holds index) (different : other ≠ index)
    (status : TransferStatus) :
    (region.putStatus index status).transferStatus other = region.transferStatus other := by
  have apartNats : other.toNat ≠ index.toNat := fun same => different (UInt32.toNat_inj.1 same)
  apply transferStatus_congr
  apply slice_splice_of_apart (held.status status)
  simp only [Apart, transferStatusAt, Layout.recordAt, Layout.recordSize, transferWord, size_encode]
  omega

theorem apart_status_completion (index other : UInt32) :
    Apart (transferStatusAt index) 4 (completionTimeAt other) 8 := by
  simp only [Apart, transferStatusAt, completionTimeAt, Layout.transferStatusAt,
    Layout.completionTimeAt, Layout.recordAt, Layout.recordSize]
  omega

theorem transferStatus_stampCompletion (held : region.Holds index) (nanos : UInt64)
    (other : UInt32) :
    (region.stampCompletion index nanos).2.transferStatus other = region.transferStatus other := by
  unfold stampCompletion
  split
  · apply transferStatus_congr
    apply slice_splice_of_apart (held.completion nanos)
    rw [size_encode]
    exact apart_status_completion other index
  · rfl

/-! ## Updating -/

theorem transferStatusAt_eq (index : UInt32) :
    transferStatusAt index = 1600 + 48 * index.toNat + 40 := by
  simp only [transferStatusAt, Layout.recordAt, Layout.headerSize, Layout.recordSize,
    Layout.transferStatusAt]
  omega

theorem completionTimeAt_eq (index : UInt32) :
    completionTimeAt index = 1600 + 48 * index.toNat + 32 := by
  simp only [completionTimeAt, Layout.recordAt, Layout.headerSize, Layout.recordSize,
    Layout.completionTimeAt]
  omega

theorem sameBut_putStatus (held : region.Holds index) (status : TransferStatus) :
    region.SameBut (TransferWords index) (region.putStatus index status) := by
  refine (sameBut_splice (held.status status)).mono fun position inside => ?_
  rw [transferWord, size_encode, transferStatusAt_eq] at inside
  exact ⟨by omega, by omega⟩

theorem sameBut_updateStatus (held : region.Holds index) (status : TransferStatus) :
    region.SameBut (TransferWords index) (region.updateStatus index status).2 :=
  sameBut_putStatus held _

theorem sameBut_stampCompletion (held : region.Holds index) (nanos : UInt64) :
    region.SameBut (TransferWords index) (region.stampCompletion index nanos).2 := by
  rw [stampCompletion]
  split
  · refine (sameBut_splice (held.completion nanos)).mono fun position inside => ?_
    rw [size_encode, completionTimeAt_eq] at inside
    exact ⟨by omega, by omega⟩
  · exact .refl _ region

theorem Keeps.putStatus (kept : region.Keeps order) (valid : order.Valid)
    (known : index < region.count) (status : TransferStatus) :
    (region.putStatus index status).Keeps order :=
  ((sameBut_putStatus (kept.holds valid known) status).words known).keeps kept

theorem Keeps.stampCompletion (kept : region.Keeps order) (valid : order.Valid)
    (known : index < region.count) (nanos : UInt64) :
    (region.stampCompletion index nanos).2.Keeps order :=
  ((sameBut_stampCompletion (kept.holds valid known) nanos).words known).keeps kept

theorem updateStatus_eq {current : TransferStatus}
    (held : region.transferStatus index = .ok current) (new : TransferStatus) :
    region.updateStatus index new =
      ({ previous := some current, current := current.merge new },
        region.putStatus index (current.merge new)) := by
  simp only [updateStatus, held, Except.toOption, Option.map_some, Option.getD_some]

theorem setJobStatus_eq (long : Layout.headerSize ≤ region.bytes.size) (status : JobStatus) :
    region.setJobStatus status =
      .ok { region with bytes := splice region.bytes Layout.jobStatusAt (jobWord status) } := by
  have within : Layout.jobStatusAt + 4 ≤ region.bytes.size := long
  rw [setJobStatus, read_eq within, ok_bind]

theorem sameBut_setJobStatus {status : JobStatus} (long : Layout.headerSize ≤ region.bytes.size)
    (done : region.setJobStatus status = .ok after) : region.SameBut JobWord after := by
  have within : Layout.jobStatusAt + (jobWord status).size ≤ region.bytes.size := by
    rw [jobWord, size_encode]
    exact long
  rw [setJobStatus_eq long] at done
  cases done
  refine (sameBut_splice within).mono fun position inside => ?_
  rw [jobWord, size_encode] at inside
  exact inside

theorem Keeps.long (kept : region.Keeps order) (valid : order.Valid) :
    Layout.headerSize ≤ region.bytes.size :=
  Nat.le_trans (Nat.le_add_right _ _) (kept.room valid)

theorem Keeps.setJobStatus {status : JobStatus} (kept : region.Keeps order) (valid : order.Valid)
    (done : region.setJobStatus status = .ok after) : after.Keeps order :=
  ((sameBut_setJobStatus (kept.long valid) done).mono fun _ => Or.inl).keeps kept

/-! ## The words that an order lays -/

theorem jobStatus_ofOrder (valid : order.Valid) :
    (ofOrder order).jobStatus = .ok .inProgress :=
  jobStatus_of_slice ((keeps_ofOrder valid).long valid) (Order.slice_image_jobStatus valid.header)

theorem slice_ofOrder {offset length : Nat} (valid : order.Valid)
    (found : order.items[index.toNat]? = some item)
    (inside : offset + length ≤ Layout.recordSize) :
    slice (ofOrder order).bytes (Layout.recordAt index.toNat + offset) length =
      slice (item.record (order.sourceOffset index.toNat)) offset length := by
  rw [← slice_slice inside]
  exact congrArg (slice · offset length) (Order.slice_image_record valid.header found)

theorem completionTime_ofOrder (valid : order.Valid)
    (found : order.items[index.toNat]? = some item) :
    (ofOrder order).completionTime index = 0 := by
  have front := Descriptor.size_image (item.descriptor (order.sourceOffset index.toNat))
  have zeros : slice (item.record (order.sourceOffset index.toNat)) Layout.completionTimeAt 8 =
      Bytes.zeros 8 := by
    rw [Order.Item.record, ByteArray.append_assoc, ByteArray.append_assoc, ← front,
      ← Nat.add_zero ((item.descriptor (order.sourceOffset index.toNat)).image.size),
      Bytes.slice_append_right]
    exact Bytes.slice_append_self _ _
  rw [completionTime, completionTimeAt, slice_ofOrder valid found (by decide), zeros]
  rfl

theorem transferStatus_ofOrder (valid : order.Valid)
    (found : order.items[index.toNat]? = some item) :
    (ofOrder order).transferStatus index = .ok .notStarted := by
  have front := Descriptor.size_image (item.descriptor (order.sourceOffset index.toNat))
  have place : Layout.transferStatusAt =
      (item.descriptor (order.sourceOffset index.toNat)).image.size +
        ((Bytes.zeros 8).size + 0) := by
    rw [front]
    rfl
  have word : slice (item.record (order.sourceOffset index.toNat)) Layout.transferStatusAt 4 =
      transferWord .notStarted := by
    rw [Order.Item.record, ByteArray.append_assoc, ByteArray.append_assoc, place,
      Bytes.slice_append_right, Bytes.slice_append_right]
    exact Bytes.slice_append_self _ _
  apply transferStatus_of_slice
  rw [transferStatusAt, slice_ofOrder valid found (by decide), word]

end Region

end TransferLedger.Plan
