/-! Byte regions with addressed parts.

`slice` reads the bytes at an offset and `splice` overwrites them.  The lemmas
say what a slice sees after a splice: the patch itself on the patched range,
and the old bytes on any range that does not meet it.  Every field of a plan is
read and written through these two operations, so nothing else needs to look
inside a region.
-/

namespace TransferLedger.Bytes

def zeros (count : Nat) : ByteArray :=
  ⟨Array.replicate count 0⟩

/-- The `length` bytes at `offset`, or as many of them as the region has. -/
def slice (bytes : ByteArray) (offset length : Nat) : ByteArray :=
  bytes.extract offset (offset + length)

/-- Overwrites the bytes at `offset` with `patch`.  Callers keep the patch
inside the region. -/
def splice (bytes : ByteArray) (offset : Nat) (patch : ByteArray) : ByteArray :=
  patch.copySlice 0 bytes offset patch.size

/-- Splices several patches in turn, each given with its offset. -/
def lay (bytes : ByteArray) (parts : List (Nat × ByteArray)) : ByteArray :=
  parts.foldl (fun region part => splice region part.1 part.2) bytes

def padTo (width : Nat) (bytes : ByteArray) : ByteArray :=
  bytes ++ zeros (width - bytes.size)

/-- The first `length` bytes, extended with zeros if there are fewer. -/
def resize (bytes : ByteArray) (length : Nat) : ByteArray :=
  padTo length (slice bytes 0 length)

theorem size_zeros (count : Nat) : (zeros count).size = count := by
  simp [zeros, ByteArray.size]

theorem size_slice (bytes : ByteArray) (offset length : Nat) :
    (slice bytes offset length).size = min (offset + length) bytes.size - offset := by
  simp [slice]

theorem size_slice_of_le {bytes : ByteArray} {offset length : Nat}
    (within : offset + length ≤ bytes.size) :
    (slice bytes offset length).size = length := by
  rw [size_slice, Nat.min_eq_left within, Nat.add_sub_cancel_left]

theorem slice_all (bytes : ByteArray) : slice bytes 0 bytes.size = bytes := by
  simp [slice]

theorem slice_append_slice {bytes : ByteArray} {cut : Nat} (within : cut ≤ bytes.size) :
    slice bytes 0 cut ++ slice bytes cut (bytes.size - cut) = bytes := by
  rw [slice, slice, Nat.zero_add, ByteArray.extract_append_extract, Nat.zero_min,
    Nat.max_eq_right (by omega), Nat.add_sub_cancel' within, ByteArray.extract_zero_size]

theorem splice_eq (bytes : ByteArray) (offset : Nat) (patch : ByteArray) :
    splice bytes offset patch =
      bytes.extract 0 offset ++ patch ++ bytes.extract (offset + patch.size) bytes.size := by
  simp [splice, ByteArray.copySlice_eq_append]

theorem size_splice {bytes patch : ByteArray} {offset : Nat}
    (within : offset + patch.size ≤ bytes.size) :
    (splice bytes offset patch).size = bytes.size := by
  rw [splice_eq]
  simp only [ByteArray.size_append, ByteArray.size_extract]
  omega

theorem slice_splice_self {bytes patch : ByteArray} {offset : Nat}
    (within : offset + patch.size ≤ bytes.size) :
    slice (splice bytes offset patch) offset patch.size = patch := by
  apply ByteArray.ext_getElem
  · exact size_slice_of_le (by rw [size_splice within]; exact within)
  · intro i first second
    simp only [slice, ByteArray.getElem_extract, splice_eq]
    have head : (bytes.extract 0 offset).size = offset := by
      simp; omega
    rw [ByteArray.getElem_append_left (by simp; omega),
      ByteArray.getElem_append_right (by omega)]
    simp only [head, Nat.add_sub_cancel_left]

theorem slice_splice_of_le {bytes patch : ByteArray} {offset start length : Nat}
    (within : offset + patch.size ≤ bytes.size) (before : start + length ≤ offset) :
    slice (splice bytes offset patch) start length = slice bytes start length := by
  apply ByteArray.ext_getElem
  · simp only [size_slice, size_splice within]
  · intro i first second
    simp only [slice, ByteArray.getElem_extract, splice_eq]
    simp only [size_slice] at second
    rw [ByteArray.getElem_append_left (by simp; omega),
      ByteArray.getElem_append_left (by simp; omega)]
    simp only [ByteArray.getElem_extract, Nat.zero_add]

theorem slice_splice_of_ge {bytes patch : ByteArray} {offset start length : Nat}
    (within : offset + patch.size ≤ bytes.size) (after : offset + patch.size ≤ start) :
    slice (splice bytes offset patch) start length = slice bytes start length := by
  apply ByteArray.ext_getElem
  · simp only [size_slice, size_splice within]
  · intro i first second
    simp only [slice, ByteArray.getElem_extract, splice_eq]
    simp only [size_slice] at second
    have head : (bytes.extract 0 offset ++ patch).size = offset + patch.size := by
      simp; omega
    rw [ByteArray.getElem_append_right (by omega)]
    simp only [ByteArray.getElem_extract, head]
    congr 1
    omega

theorem le_size_padTo (width : Nat) (bytes : ByteArray) :
    width ≤ (padTo width bytes).size ∧ bytes.size ≤ (padTo width bytes).size := by
  simp [padTo, size_zeros]
  omega

theorem size_padTo {width : Nat} {bytes : ByteArray} (fits : bytes.size ≤ width) :
    (padTo width bytes).size = width := by
  simp [padTo, size_zeros]
  omega

end TransferLedger.Bytes
