import TransferLedger.Bytes
import TransferLedger.Bytes.LittleEndian

/-! Slices of slices, of joined regions and of regions with several patches.

Parts that are laid in ascending order do not meet, so each of them is read back
from the region as it was given, and what lies between them stays.
-/

namespace TransferLedger.Bytes

variable {bytes left right patch : ByteArray} {offset length start count finish : Nat}
variable {parts : List (Nat × ByteArray)} {part : Nat × ByteArray}

theorem slice_slice (inside : start + count ≤ length) :
    slice (slice bytes offset length) start count = slice bytes (offset + start) count := by
  have bound : min (offset + (start + count)) (offset + length) = offset + start + count := by
    omega
  rw [slice, slice, slice, ByteArray.extract_extract, bound]

theorem slice_append_left (within : offset + length ≤ left.size) :
    slice (left ++ right) offset length = slice left offset length := by
  apply ByteArray.ext_getElem
  · simp only [size_slice, ByteArray.size_append]
    omega
  · intro i first second
    rw [size_slice] at second
    simp only [slice, ByteArray.getElem_extract]
    exact ByteArray.getElem_append_left (by omega)

theorem slice_append_right (left right : ByteArray) (offset length : Nat) :
    slice (left ++ right) (left.size + offset) length = slice right offset length := by
  rw [slice, slice, Nat.add_assoc, ByteArray.extract_append_size_add]

theorem slice_append_self (left right : ByteArray) : slice (left ++ right) 0 left.size = left := by
  rw [slice_append_left (by omega), slice_all]

theorem slice_append_rest (left right : ByteArray) :
    slice (left ++ right) left.size right.size = right := by
  have shifted := slice_append_right left right 0 right.size
  rwa [Nat.add_zero, slice_all] at shifted

/-- Two ranges, each an offset and a length, that do not meet. -/
def Apart (offset length start count : Nat) : Prop :=
  offset + length ≤ start ∨ start + count ≤ offset

theorem slice_splice_of_apart (within : offset + patch.size ≤ bytes.size)
    (apart : Apart start count offset patch.size) :
    slice (splice bytes offset patch) start count = slice bytes start count := by
  rcases apart with before | behind
  · exact slice_splice_of_le within before
  · exact slice_splice_of_ge within behind

theorem slice_splice_inside (within : offset + patch.size ≤ bytes.size)
    (inside : start + count ≤ patch.size) :
    slice (splice bytes offset patch) (offset + start) count = slice patch start count := by
  rw [← slice_slice inside, slice_splice_self within]

theorem slice_add (bytes : ByteArray) (offset length more : Nat) :
    slice bytes offset (length + more) =
      slice bytes offset length ++ slice bytes (offset + length) more := by
  have least : min offset (offset + length) = offset := by omega
  have most : max (offset + length) (offset + length + more) = offset + (length + more) := by omega
  rw [slice, slice, slice, ByteArray.extract_append_extract, least, most]

theorem slice_succ (bytes : ByteArray) (offset length : Nat) :
    slice bytes offset (length + 1) =
      slice bytes offset length ++ slice bytes (offset + length) 1 :=
  slice_add bytes offset length 1

theorem slice_eq_of_each
    (each : ∀ position, offset ≤ position → position < offset + length →
      slice left position 1 = slice right position 1) :
    slice left offset length = slice right offset length := by
  induction length with
  | zero =>
      rw [slice, slice, Nat.add_zero, ByteArray.extract_same, ByteArray.extract_same]
  | succ length ih =>
      have front := ih (fun position lower upper => each position lower (by omega))
      have last := each (offset + length) (by omega) (by omega)
      rw [slice_succ left offset length, slice_succ right offset length, front, last]

/-- Parts that stand one behind the other between two offsets. -/
def Ascending (start finish : Nat) : List (Nat × ByteArray) → Prop
  | [] => start ≤ finish
  | (offset, patch) :: rest => start ≤ offset ∧ Ascending (offset + patch.size) finish rest

theorem Ascending.le (ascending : Ascending start finish parts) : start ≤ finish := by
  induction parts generalizing start with
  | nil => exact ascending
  | cons first rest ih =>
      have behind := ih ascending.2
      have front := ascending.1
      omega

theorem Ascending.within (ascending : Ascending start finish parts) (member : part ∈ parts) :
    start ≤ part.1 ∧ part.1 + part.2.size ≤ finish := by
  induction parts generalizing start with
  | nil => cases member
  | cons first rest ih =>
      obtain ⟨front, behind⟩ := ascending
      rcases List.mem_cons.mp member with rfl | later
      · exact ⟨front, behind.le⟩
      · have inside := ih behind later
        exact ⟨by omega, inside.2⟩

theorem size_lay (ascending : Ascending start finish parts) (within : finish ≤ bytes.size) :
    (lay bytes parts).size = bytes.size := by
  induction parts generalizing start bytes with
  | nil => rfl
  | cons first rest ih =>
      have fits : first.1 + first.2.size ≤ bytes.size := Nat.le_trans ascending.2.le within
      have room : finish ≤ (splice bytes first.1 first.2).size := by rwa [size_splice fits]
      exact (ih ascending.2 room).trans (size_splice fits)

theorem slice_lay_of_le (ascending : Ascending start finish parts) (within : finish ≤ bytes.size)
    (before : offset + length ≤ start) :
    slice (lay bytes parts) offset length = slice bytes offset length := by
  induction parts generalizing start bytes with
  | nil => rfl
  | cons first rest ih =>
      have front := ascending.1
      have fits : first.1 + first.2.size ≤ bytes.size := Nat.le_trans ascending.2.le within
      have room : finish ≤ (splice bytes first.1 first.2).size := by rwa [size_splice fits]
      have kept := ih ascending.2 room (by omega)
      exact kept.trans (slice_splice_of_le fits (by omega))

theorem slice_lay_of_mem (ascending : Ascending start finish parts)
    (within : finish ≤ bytes.size) (member : part ∈ parts) :
    slice (lay bytes parts) part.1 part.2.size = part.2 := by
  induction parts generalizing start bytes with
  | nil => cases member
  | cons first rest ih =>
      have fits : first.1 + first.2.size ≤ bytes.size := Nat.le_trans ascending.2.le within
      have room : finish ≤ (splice bytes first.1 first.2).size := by rwa [size_splice fits]
      rcases List.mem_cons.mp member with rfl | later
      · have kept := slice_lay_of_le ascending.2 room (Nat.le_refl _)
        exact kept.trans (slice_splice_self fits)
      · exact ih ascending.2 room later

/-! ## Several patches as one -/

variable {other inner : ByteArray} {position : Nat}

theorem eq_of_each (size : left.size = right.size)
    (each : ∀ position < left.size, slice left position 1 = slice right position 1) :
    left = right := by
  have whole : slice left 0 left.size = slice right 0 left.size :=
    slice_eq_of_each fun position _ front => each position (by omega)
  rw [slice_all, size, slice_all] at whole
  exact whole

theorem slice_splice_at (within : offset + patch.size ≤ bytes.size) (behind : offset ≤ position)
    (front : position < offset + patch.size) :
    slice (splice bytes offset patch) position 1 = slice patch (position - offset) 1 := by
  have inside : slice (splice bytes offset patch) (offset + (position - offset)) 1 =
      slice patch (position - offset) 1 := slice_splice_inside within (by omega)
  rwa [Nat.add_sub_cancel' behind] at inside

theorem slice_splice_away (within : offset + patch.size ≤ bytes.size)
    (outside : position < offset ∨ offset + patch.size ≤ position) :
    slice (splice bytes offset patch) position 1 = slice bytes position 1 :=
  slice_splice_of_apart within (by simp only [Apart]; omega)

theorem splice_whole (size : patch.size = bytes.size) : splice bytes 0 patch = patch := by
  have within : 0 + patch.size ≤ bytes.size := by omega
  have whole := slice_splice_self within
  rwa [size, ← size_splice within, slice_all] at whole

/-- Patches that do not meet are spliced in either order. -/
theorem splice_comm (first : offset + patch.size ≤ bytes.size)
    (second : start + other.size ≤ bytes.size) (apart : Apart offset patch.size start other.size) :
    splice (splice bytes offset patch) start other =
      splice (splice bytes start other) offset patch := by
  have firstLater : offset + patch.size ≤ (splice bytes start other).size := by
    rwa [size_splice second]
  have secondLater : start + other.size ≤ (splice bytes offset patch).size := by
    rwa [size_splice first]
  simp only [Apart] at apart
  apply eq_of_each
  · rw [size_splice secondLater, size_splice first, size_splice firstLater, size_splice second]
  · intro position _
    by_cases inPatch : offset ≤ position ∧ position < offset + patch.size
    · rw [slice_splice_away secondLater (by omega), slice_splice_at first inPatch.1 inPatch.2,
        slice_splice_at firstLater inPatch.1 inPatch.2]
    · rw [slice_splice_away firstLater (by omega)]
      by_cases inOther : start ≤ position ∧ position < start + other.size
      · rw [slice_splice_at secondLater inOther.1 inOther.2,
          slice_splice_at second inOther.1 inOther.2]
      · rw [slice_splice_away secondLater (by omega), slice_splice_away second (by omega),
          slice_splice_away first (by omega)]

/-- A patch right behind another one makes one patch with it. -/
theorem splice_append (within : offset + (left.size + right.size) ≤ bytes.size) :
    splice (splice bytes offset left) (offset + left.size) right =
      splice bytes offset (left ++ right) := by
  have first : offset + left.size ≤ bytes.size := by omega
  have second : offset + left.size + right.size ≤ (splice bytes offset left).size := by
    rw [size_splice first]
    omega
  have joined : (left ++ right).size = left.size + right.size := ByteArray.size_append
  have both : offset + (left ++ right).size ≤ bytes.size := by rwa [joined]
  apply eq_of_each
  · rw [size_splice second, size_splice first, size_splice both]
  · intro position _
    by_cases inLeft : offset ≤ position ∧ position < offset + left.size
    · rw [slice_splice_away second (by omega), slice_splice_at first inLeft.1 inLeft.2,
        slice_splice_at both inLeft.1 (by omega), slice_append_left (by omega)]
    · by_cases inRight : offset + left.size ≤ position ∧
          position < offset + left.size + right.size
      · have place : position - offset = left.size + (position - (offset + left.size)) := by omega
        rw [slice_splice_at second inRight.1 inRight.2,
          slice_splice_at both (by omega) (by omega), place, slice_append_right]
      · rw [slice_splice_away second (by omega), slice_splice_away first (by omega),
          slice_splice_away both (by omega)]

theorem splice_empty (inside : offset ≤ bytes.size) : splice bytes offset .empty = bytes := by
  have within : offset + ByteArray.empty.size ≤ bytes.size := inside
  refine eq_of_each (size_splice within) fun position _ => slice_splice_away within ?_
  simp only [ByteArray.size_empty]
  omega

/-- Patches at two places in turn, each right behind the last one at its place, come to one
patch at each place. -/
theorem splice_alternating {first second moreFirst moreSecond : ByteArray}
    (apart : offset + (first.size + moreFirst.size) ≤ start)
    (within : start + (second.size + moreSecond.size) ≤ bytes.size) :
    splice (splice (splice (splice bytes start second) offset first) (offset + first.size)
        moreFirst) (start + second.size) moreSecond =
      splice (splice bytes offset (first ++ moreFirst)) start (second ++ moreSecond) := by
  have firstRoom : offset + first.size ≤ bytes.size := by omega
  have secondRoom : start + second.size ≤ bytes.size := by omega
  have firstSize := size_splice firstRoom
  have firstMore : offset + first.size + moreFirst.size ≤
      (splice bytes offset first).size := by omega
  have secondLater : start + second.size ≤ (splice bytes offset first).size := by omega
  have moreSize := size_splice firstMore
  rw [splice_comm secondRoom firstRoom (by simp only [Apart]; omega),
    splice_comm secondLater firstMore (by simp only [Apart]; omega),
    splice_append (by omega), splice_append (by omega)]

/-- A patch inside of another one changes that one. -/
theorem splice_splice (within : offset + patch.size ≤ bytes.size)
    (inside : start + inner.size ≤ patch.size) :
    splice (splice bytes offset patch) (offset + start) inner =
      splice bytes offset (splice patch start inner) := by
  have size : (splice patch start inner).size = patch.size := size_splice inside
  have whole : offset + (splice patch start inner).size ≤ bytes.size := by rwa [size]
  have second : offset + start + inner.size ≤ (splice bytes offset patch).size := by
    rw [size_splice within]
    omega
  apply eq_of_each
  · rw [size_splice second, size_splice within, size_splice whole]
  · intro position _
    by_cases inPatch : offset ≤ position ∧ position < offset + patch.size
    · rw [slice_splice_at whole inPatch.1 (by omega)]
      by_cases inInner : offset + start ≤ position ∧ position < offset + start + inner.size
      · rw [slice_splice_at second inInner.1 inInner.2,
          slice_splice_at inside (by omega) (by omega), Nat.sub_sub]
      · rw [slice_splice_away second (by omega), slice_splice_away inside (by omega),
          slice_splice_at within inPatch.1 inPatch.2]
    · rw [slice_splice_away second (by omega), slice_splice_away within (by omega),
        slice_splice_away whole (by omega)]

/-- Parts laid over a patch at the front are laid over the patch. -/
theorem lay_splice (ascending : Ascending start finish parts) (inside : finish ≤ patch.size)
    (within : patch.size ≤ bytes.size) :
    lay (splice bytes 0 patch) parts = splice bytes 0 (lay patch parts) := by
  induction parts generalizing start patch with
  | nil => rfl
  | cons first rest ih =>
      have fits : first.1 + first.2.size ≤ patch.size := Nat.le_trans ascending.2.le inside
      have size : (splice patch first.1 first.2).size = patch.size := size_splice fits
      have room : 0 + patch.size ≤ bytes.size := by omega
      have joined := splice_splice room fits
      rw [Nat.zero_add] at joined
      change lay (splice (splice bytes 0 patch) first.1 first.2) rest =
        splice bytes 0 (lay (splice patch first.1 first.2) rest)
      rw [joined]
      exact ih ascending.2 (by rw [size]; exact inside) (by rw [size]; exact within)

/-! ## What parts leave free -/

/-- The range between two offsets, if it is not empty. -/
def gap (start finish : Nat) : List (Nat × Nat) :=
  if start < finish then [(start, finish - start)] else []

/-- The ranges that parts in ascending order leave free between two offsets. -/
def gaps (finish : Nat) : (start : Nat) → List (Nat × ByteArray) → List (Nat × Nat)
  | start, [] => gap start finish
  | start, (offset, patch) :: rest => gap start offset ++ gaps finish (offset + patch.size) rest

theorem slice_add_eq_iff {more : Nat} :
    slice left offset (length + more) = slice right offset (length + more) ↔
      slice left offset length = slice right offset length ∧
        slice left (offset + length) more = slice right (offset + length) more := by
  constructor
  · intro whole
    have front : 0 + length ≤ length + more := by omega
    have behind : length + more ≤ length + more := Nat.le_refl _
    constructor
    · have inner := congrArg (fun bytes => slice bytes 0 length) whole
      simpa only [slice_slice front, Nat.add_zero] using inner
    · have inner := congrArg (fun bytes => slice bytes length more) whole
      simpa only [slice_slice behind] using inner
  · rintro ⟨front, behind⟩
    rw [slice_add, slice_add, front, behind]

theorem forall_mem_gap :
    (∀ range ∈ gap start finish, slice left range.1 range.2 = slice right range.1 range.2) ↔
      slice left start (finish - start) = slice right start (finish - start) := by
  by_cases proper : start < finish
  · simp [gap, if_pos proper]
  · have empty : finish - start = 0 := by omega
    simp [gap, if_neg proper, empty, slice, ByteArray.extract_same]

theorem le_of_mem_gaps (ascending : Ascending start finish parts) {range : Nat × Nat}
    (member : range ∈ gaps finish start parts) : start ≤ range.1 := by
  have ofGap : ∀ {start finish : Nat}, range ∈ gap start finish → start ≤ range.1 := by
    intro start finish member
    rw [gap] at member
    split at member
    · cases List.mem_singleton.1 member
      exact Nat.le_refl _
    · cases member
  induction parts generalizing start with
  | nil => exact ofGap member
  | cons first rest ih =>
      obtain ⟨front, behind⟩ := ascending
      rcases List.mem_append.1 member with near | later
      · exact ofGap near
      · have inside := ih behind later
        omega

/-- Bytes agree with laid parts where they hold each part in its place, and in what the parts
leave free the bytes that the parts were laid over. -/
theorem slice_lay_eq_iff (ascending : Ascending start finish parts) (within : finish ≤ right.size) :
    slice left start (finish - start) = slice (lay right parts) start (finish - start) ↔
      (∀ part ∈ parts, slice left part.1 part.2.size = part.2) ∧
        ∀ range ∈ gaps finish start parts,
          slice left range.1 range.2 = slice right range.1 range.2 := by
  induction parts generalizing start right with
  | nil =>
      rw [gaps, forall_mem_gap]
      simp [lay]
  | cons first rest ih =>
      obtain ⟨offset, patch⟩ := first
      obtain ⟨front, behind⟩ := ascending
      have fits : offset + patch.size ≤ right.size := Nat.le_trans behind.le within
      have room : finish ≤ (splice right offset patch).size := by rwa [size_splice fits]
      have laid : lay right ((offset, patch) :: rest) = lay (splice right offset patch) rest := rfl
      have cut : finish - start =
          (offset - start) + (patch.size + (finish - (offset + patch.size))) := by
        have inside := behind.le
        omega
      have before : slice (lay (splice right offset patch) rest) start (offset - start) =
          slice right start (offset - start) := by
        rw [slice_lay_of_le behind room (by omega), slice_splice_of_le fits (by omega)]
      have held : slice (lay (splice right offset patch) rest) offset patch.size = patch := by
        rw [slice_lay_of_le behind room (Nat.le_refl _), slice_splice_self fits]
      have free : (∀ range ∈ gaps finish (offset + patch.size) rest,
          slice left range.1 range.2 = slice (splice right offset patch) range.1 range.2) ↔
          ∀ range ∈ gaps finish (offset + patch.size) rest,
            slice left range.1 range.2 = slice right range.1 range.2 := by
        refine forall_congr' fun range => imp_congr_right fun member => ?_
        rw [slice_splice_of_ge fits (le_of_mem_gaps behind member)]
      -- The bytes up to the part, the part itself and what follows it are compared apart.
      rw [laid, cut, slice_add_eq_iff, Nat.add_sub_cancel' front, slice_add_eq_iff, before, held,
        ih behind room, free, gaps, List.forall_mem_append, forall_mem_gap, List.forall_mem_cons]
      constructor
      · rintro ⟨between, part, others, later⟩
        exact ⟨⟨part, others⟩, between, later⟩
      · rintro ⟨⟨part, others⟩, between, later⟩
        exact ⟨between, part, others, later⟩

/-! ## Words -/

open LittleEndian (encode decode)

theorem slice_encode {width number : Nat} (written : slice bytes offset width = encode width number)
    (fits : number < LittleEndian.bound width) : decode (slice bytes offset width) = number := by
  rw [written, LittleEndian.decode_encode fits]

end TransferLedger.Bytes
