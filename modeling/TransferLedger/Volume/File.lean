import TransferLedger.Bytes

/-! The content of a file that windows are open on.

A window that is longer than its file also shows bytes after the end, zeros at
first.  What is stored there is seen by every window, but it is no part of the
file: reading does not find it, and flushing or writing the file anew loses it.
What is stored through a window is what the window shows.
-/

namespace TransferLedger.Volume

structure File where
  bytes : ByteArray
  /-- What windows show after the end, up to the zeros that follow it. -/
  beyond : ByteArray := .empty

namespace File

def window (file : File) (length : Nat) : ByteArray :=
  Bytes.resize (file.bytes ++ file.beyond) length

/-- Stores the bytes of a window.  The file keeps its length. -/
def store (file : File) (region : ByteArray) : File :=
  let shown := Bytes.splice (Bytes.padTo region.size (file.bytes ++ file.beyond)) 0 region
  { bytes := Bytes.slice shown 0 file.bytes.size
    beyond := Bytes.slice shown file.bytes.size (shown.size - file.bytes.size) }

/-- Overwrites bytes in place.  A file that is too short grows, with zeros up to
the patch, but not for an empty patch. -/
def overwrite (file : File) (offset : Nat) (patch : ByteArray) : File :=
  if patch.isEmpty then file
  else
    let bytes := Bytes.splice (Bytes.padTo (offset + patch.size) file.bytes) offset patch
    { bytes, beyond := Bytes.slice file.beyond (bytes.size - file.bytes.size) file.beyond.size }

def flush (file : File) : File where
  bytes := file.bytes

theorem size_store (file : File) (region : ByteArray) :
    (file.store region).bytes.size = file.bytes.size := by
  have room := Bytes.le_size_padTo region.size (file.bytes ++ file.beyond)
  rw [ByteArray.size_append] at room
  apply Bytes.size_slice_of_le
  rw [Bytes.size_splice (by omega)]
  omega

theorem window_store (file : File) (region : ByteArray) :
    (file.store region).window region.size = region := by
  have room := Bytes.le_size_padTo region.size (file.bytes ++ file.beyond)
  rw [ByteArray.size_append] at room
  have within : 0 + region.size ≤ (Bytes.padTo region.size (file.bytes ++ file.beyond)).size := by
    omega
  have shown : (file.store region).bytes ++ (file.store region).beyond =
      Bytes.splice (Bytes.padTo region.size (file.bytes ++ file.beyond)) 0 region :=
    Bytes.slice_append_slice (by rw [Bytes.size_splice within]; omega)
  rw [window, Bytes.resize, shown, Bytes.slice_splice_self within, Bytes.padTo, Nat.sub_self]
  exact ByteArray.append_empty

end File

end TransferLedger.Volume
