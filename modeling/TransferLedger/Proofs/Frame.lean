import TransferLedger.Proofs.Strings

/-! What updates leave of a region that was accepted, whatever else it holds.

Updates write to the status word of the job and, in each record that is counted, to the
completion time and the status.  What is read from other positions is the same before and
after: the header, the descriptors, the strings and the words of all other transfers.
-/

namespace TransferLedger.Plan

open Bytes (slice)

namespace Region

variable {before after : Region} {touched : Nat → Prop} {index : UInt32} {offset : Nat}

theorem SameBut.whole (same : before.SameBut (Word before.count) after)
    (whole : before.Whole) : after.Whole := by
  rw [Whole, same.count, same.size]
  exact whole

theorem SameBut.header_eq (same : before.SameBut (Word before.count) after)
    (whole : before.Whole) : after.header = before.header := by
  rw [(same.whole whole).header_eq, whole.header_eq, same.slice_header]

theorem SameBut.ofBytes_eq (same : before.SameBut (Word before.count) after)
    (accepted : ofBytes before.bytes = .ok before) : ofBytes after.bytes = .ok after := by
  obtain ⟨long, header, read, whole, found⟩ := ofBytes_eq_ok_iff.1 accepted
  have front : Layout.jobStatusAt ≤ before.bytes.size := Nat.le_trans (by decide) long
  have count : after.count = header.transferCount := by rw [same.count, found]
  refine ofBytes_eq_ok_iff.2 ⟨?_, header, ?_, ?_, ?_⟩
  · rw [same.size]
    exact long
  · rw [← Header.read_slice (by rw [same.size]; exact front), same.slice_header,
      Header.read_slice front]
    exact read
  · rw [same.size]
    exact whole
  · rw [← count]

theorem SameBut.record_eq (same : before.SameBut (Word before.count) after)
    (whole : before.Whole) (index : UInt32) :
    after.record index = before.record index := by
  by_cases known : index < before.count
  · have still : index < after.count := by rwa [same.count]
    rw [(same.whole whole).record_eq still, whole.record_eq known, same.slice_descriptor]
  · have unknown := UInt32.not_lt.1 known
    rw [record_eq_error unknown, record_eq_error (by rwa [same.count]), same.count]

theorem SameBut.read_behind (same : before.SameBut (Word before.count) after)
    (behind : Layout.stringsAt before.count.toNat ≤ offset) (length : Nat) :
    after.read offset length = before.read offset length := by
  rw [read, read, same.slice_behind behind, same.size]

theorem SameBut.strings_eq (same : before.SameBut (Word before.count) after)
    (whole : before.Whole) (index : UInt32) :
    after.strings index = before.strings index := by
  have found := same.record_eq whole index
  cases taken : before.record index with
  | error fault => rw [strings, strings, found, taken, error_bind, error_bind]
  | ok record =>
      rw [taken] at found
      rw [strings_of_record found, strings_of_record taken, same.count, same.size]
      split
      · rfl
      · rename_i placed
        have behind := Nat.not_lt.1 placed
        have further : Layout.stringsAt before.count.toNat ≤ record.descriptor.destinationOffset :=
          Nat.le_trans behind (Nat.le_add_right _ _)
        rw [same.read_behind behind, same.read_behind further]

theorem SameBut.transferStatus_eq (same : before.SameBut touched after)
    (clear : ∀ position, TransferWords index position → ¬ touched position) :
    after.transferStatus index = before.transferStatus index := by
  refine transferStatus_congr (same.slice_eq fun position behind front => clear position ?_)
  rw [transferStatusAt_eq] at behind front
  exact ⟨by omega, by omega⟩

theorem SameBut.completionTime_eq (same : before.SameBut touched after)
    (clear : ∀ position, TransferWords index position → ¬ touched position) :
    after.completionTime index = before.completionTime index := by
  have word : slice after.bytes (completionTimeAt index) 8 =
      slice before.bytes (completionTimeAt index) 8 := by
    refine same.slice_eq fun position behind front => clear position ?_
    rw [completionTimeAt_eq] at behind front
    exact ⟨by omega, by omega⟩
  rw [completionTime, completionTime, word]

end Region

end TransferLedger.Plan
