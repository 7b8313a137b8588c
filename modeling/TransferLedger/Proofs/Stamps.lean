import TransferLedger.Proofs.Words

namespace TransferLedger.Plan

open Bytes (slice splice Apart slice_eq_of_each slice_splice_of_apart slice_splice_inside
  slice_splice_self size_splice)
open Bytes.LittleEndian (encode decode size_encode decode_encode)

/-! Regions that differ in when transfers have ended, but not in which have.

Two runs of the same steps stamp the same transfers at different times.  What they
write besides the stamps is the same, and no update reads the value of a stamp.
-/

namespace Region

variable {left right region : Region} {index other : UInt32} {offset length : Nat}
variable {patch : ByteArray}

/-- The range has no byte in common with a completion time of a counted transfer. -/
def Clear (count : UInt32) (offset length : Nat) : Prop :=
  ∀ index, index < count → Apart offset length (completionTimeAt index) 8

/-- The regions are equal byte for byte outside of the completion times, and a
completion time that is zero in one of them is zero in the other. -/
structure SameButStamps (left right : Region) : Prop where
  count : left.count = right.count
  size : left.bytes.size = right.bytes.size
  bytes : ∀ position, Clear left.count position 1 →
    slice left.bytes position 1 = slice right.bytes position 1
  stamped : ∀ index, index < left.count →
    (left.completionTime index = 0 ↔ right.completionTime index = 0)

theorem SameButStamps.refl (region : Region) : region.SameButStamps region :=
  ⟨rfl, rfl, fun _ _ => rfl, fun _ _ => Iff.rfl⟩

theorem SameButStamps.slice_eq (same : left.SameButStamps right)
    (clear : Clear left.count offset length) :
    slice left.bytes offset length = slice right.bytes offset length := by
  apply slice_eq_of_each
  intro position behind before
  apply same.bytes
  intro index known
  have apart := clear index known
  simp only [Apart] at apart ⊢
  omega

theorem clear_transferStatus (count index : UInt32) : Clear count (transferStatusAt index) 4 :=
  fun other _ => apart_status_completion index other

theorem clear_jobStatus (count : UInt32) : Clear count Layout.jobStatusAt 4 := by
  intro other _
  refine Or.inl ?_
  simp only [completionTimeAt, Layout.recordAt, Layout.headerSize, Layout.jobStatusAt]
  omega

theorem apart_completionTime (different : other ≠ index) :
    Apart (completionTimeAt other) 8 (completionTimeAt index) 8 := by
  have apartNats : other.toNat ≠ index.toNat := fun same => different (UInt32.toNat_inj.1 same)
  simp only [Apart, completionTimeAt, Layout.completionTimeAt, Layout.recordAt, Layout.recordSize]
  omega

/-! ## Updates of both regions -/

/-- A word that is no completion time is put into both regions. -/
theorem SameButStamps.splice (same : left.SameButStamps right)
    (within : offset + patch.size ≤ left.bytes.size) (clear : Clear left.count offset patch.size) :
    SameButStamps { left with bytes := splice left.bytes offset patch }
      { right with bytes := Bytes.splice right.bytes offset patch } := by
  have withinRight : offset + patch.size ≤ right.bytes.size := same.size ▸ within
  constructor
  · exact same.count
  · rw [size_splice within, size_splice withinRight]
    exact same.size
  · intro position outside
    by_cases inside : offset ≤ position ∧ position + 1 ≤ offset + patch.size
    · obtain ⟨start, rfl⟩ : ∃ start, position = offset + start := ⟨position - offset, by omega⟩
      have covered : start + 1 ≤ patch.size := by omega
      rw [slice_splice_inside within covered, slice_splice_inside withinRight covered]
    · have apart : Apart position 1 offset patch.size := by
        simp only [Apart]
        omega
      rw [slice_splice_of_apart within apart, slice_splice_of_apart withinRight apart]
      exact same.bytes position outside
  · intro index known
    have apart : Apart (completionTimeAt index) 8 offset patch.size := (clear index known).symm
    have stamped := same.stamped index known
    rw [completionTime, completionTime] at stamped ⊢
    rw [slice_splice_of_apart within apart, slice_splice_of_apart withinRight apart]
    exact stamped

theorem SameButStamps.transferStatus_eq (same : left.SameButStamps right) (index : UInt32) :
    left.transferStatus index = right.transferStatus index :=
  transferStatus_congr (same.slice_eq (clear_transferStatus _ index))

theorem SameButStamps.putStatus (same : left.SameButStamps right) (held : left.Holds index)
    (status : TransferStatus) :
    (left.putStatus index status).SameButStamps (right.putStatus index status) := by
  apply same.splice (held.status status)
  rw [transferWord, size_encode]
  exact clear_transferStatus _ index

theorem SameButStamps.updateStatus (same : left.SameButStamps right) (held : left.Holds index)
    (status : TransferStatus) :
    (left.updateStatus index status).1 = (right.updateStatus index status).1 ∧
      (left.updateStatus index status).2.SameButStamps (right.updateStatus index status).2 := by
  simp only [Region.updateStatus, same.transferStatus_eq index]
  exact ⟨trivial, same.putStatus held _⟩

theorem SameButStamps.setJobStatus (same : left.SameButStamps right)
    (long : Layout.headerSize ≤ left.bytes.size) (status : JobStatus) :
    ∃ first second, left.setJobStatus status = .ok first ∧
      right.setJobStatus status = .ok second ∧ first.SameButStamps second := by
  have within : Layout.jobStatusAt + (jobWord status).size ≤ left.bytes.size := by
    rw [jobWord, size_encode]
    exact long
  refine ⟨_, _, setJobStatus_eq long status, setJobStatus_eq (same.size ▸ long) status, ?_⟩
  apply same.splice within
  rw [jobWord, size_encode]
  exact clear_jobStatus _

/-! ## Stamps -/

/-- Sets the completion time of a transfer, whatever it was. -/
def putCompletion (region : Region) (index : UInt32) (nanos : UInt64) : Region :=
  { region with
    bytes := Bytes.splice region.bytes (completionTimeAt index) (encode 8 nanos.toNat) }

theorem stampCompletion_snd (region : Region) (index : UInt32) (nanos : UInt64) :
    (region.stampCompletion index nanos).2 =
      if region.completionTime index = 0 then region.putCompletion index nanos else region := by
  rw [Region.stampCompletion]
  split <;> rfl

theorem count_putCompletion (region : Region) (index : UInt32) (nanos : UInt64) :
    (region.putCompletion index nanos).count = region.count := by
  rw [putCompletion]

theorem size_putCompletion (held : region.Holds index) (nanos : UInt64) :
    (region.putCompletion index nanos).bytes.size = region.bytes.size :=
  size_splice (held.completion nanos)

theorem slice_putCompletion_of_apart (held : region.Holds index) (nanos : UInt64)
    (apart : Apart offset length (completionTimeAt index) 8) :
    slice (region.putCompletion index nanos).bytes offset length =
      slice region.bytes offset length := by
  apply slice_splice_of_apart (held.completion nanos)
  rw [size_encode]
  exact apart

theorem completionTime_putCompletion_self (held : region.Holds index) (nanos : UInt64) :
    (region.putCompletion index nanos).completionTime index = nanos := by
  have written := slice_splice_self (held.completion nanos)
  rw [size_encode] at written
  rw [completionTime, putCompletion, written, decode_encode nanos.toNat_lt, UInt64.ofNat_toNat]

theorem completionTime_putCompletion_of_ne (held : region.Holds index) (nanos : UInt64)
    (different : other ≠ index) :
    (region.putCompletion index nanos).completionTime other = region.completionTime other := by
  rw [completionTime, slice_putCompletion_of_apart held nanos (apart_completionTime different)]
  rfl

theorem SameButStamps.putCompletion {first second : UInt64} (same : left.SameButStamps right)
    (held : left.Holds index) (known : index < left.count) (runs : first ≠ 0) (goes : second ≠ 0) :
    (left.putCompletion index first).SameButStamps (right.putCompletion index second) := by
  have heldRight : right.Holds index := by
    rw [Holds, ← same.size]
    exact held
  constructor
  · rw [count_putCompletion, count_putCompletion]
    exact same.count
  · rw [size_putCompletion held, size_putCompletion heldRight]
    exact same.size
  · intro position outside
    rw [count_putCompletion] at outside
    have apart := outside index known
    rw [slice_putCompletion_of_apart held first apart,
      slice_putCompletion_of_apart heldRight second apart]
    exact same.bytes position outside
  · intro other there
    rw [count_putCompletion] at there
    by_cases this : other = index
    · rw [this, completionTime_putCompletion_self held,
        completionTime_putCompletion_self heldRight]
      exact iff_of_false runs goes
    · rw [completionTime_putCompletion_of_ne held first this,
        completionTime_putCompletion_of_ne heldRight second this]
      exact same.stamped other there

/-- Both regions record the end of a transfer, or had it recorded before. -/
theorem SameButStamps.stampCompletion {first second : UInt64} (same : left.SameButStamps right)
    (held : left.Holds index) (known : index < left.count) (runs : first ≠ 0) (goes : second ≠ 0) :
    (left.stampCompletion index first).2.SameButStamps (right.stampCompletion index second).2 := by
  have stamped := same.stamped index known
  rw [stampCompletion_snd, stampCompletion_snd]
  by_cases fresh : left.completionTime index = 0
  · rw [if_pos fresh, if_pos (stamped.1 fresh)]
    exact same.putCompletion held known runs goes
  · rw [if_neg fresh, if_neg fun zero => fresh (stamped.2 zero)]
    exact same

end Region

end TransferLedger.Plan
