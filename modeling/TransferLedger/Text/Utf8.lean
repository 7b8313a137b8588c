/-! Text stored as UTF-8 bytes, and the place where bytes stop being text.

`decode` gives the text that the bytes encode.  If there is none it says how
many leading bytes are whole characters, and whether the next sequence is ill
formed or merely cut off by the end of the bytes.
-/

namespace TransferLedger.Text.Utf8

/-- The first place where bytes are not UTF-8. -/
structure Fault where
  /-- The length of the longest run of whole characters at the front. -/
  validUpTo : Nat
  /-- The length of the ill-formed sequence there, or `none` when the bytes end
  inside a sequence that could still have been completed. -/
  length : Option Nat
  deriving DecidableEq, Repr

namespace Fault

def message (fault : Fault) : String :=
  match fault.length with
  | some length =>
      "invalid utf-8 sequence of " ++ toString length ++ " bytes from index " ++
        toString fault.validUpTo
  | none => "incomplete utf-8 byte sequence from index " ++ toString fault.validUpTo

end Fault

/-- The end of the run of whole characters that begins at `start`. -/
def wholeUpTo (bytes : ByteArray) (start : Nat) : Nat :=
  match _ : bytes.utf8DecodeChar? start with
  | none => start
  | some c => wholeUpTo bytes (start + c.utf8Size)
termination_by bytes.size - start
decreasing_by
  have within := ByteArray.le_size_of_utf8DecodeChar?_eq_some ‹_ = some c›
  have positive := c.utf8Size_pos
  omega

/-- What a leading byte asks for: the number of bytes that follow it and the
bounds of the first of them.  The later ones lie between 80 and BF. -/
def following? (lead : UInt8) : Option (Nat × UInt8 × UInt8) :=
  if 0xC2 ≤ lead ∧ lead ≤ 0xDF then some (1, 0x80, 0xBF)
  else if lead = 0xE0 then some (2, 0xA0, 0xBF)
  else if lead = 0xED then some (2, 0x80, 0x9F)
  else if 0xE1 ≤ lead ∧ lead ≤ 0xEF then some (2, 0x80, 0xBF)
  else if lead = 0xF0 then some (3, 0x90, 0xBF)
  else if 0xF1 ≤ lead ∧ lead ≤ 0xF3 then some (3, 0x80, 0xBF)
  else if lead = 0xF4 then some (3, 0x80, 0x8F)
  else none

/-- With `seen` bytes of a sequence accepted and `count` owed, the number of
bytes accepted before the first that is out of bounds. -/
def brokenAfter : (seen count : Nat) → (low high : UInt8) → List UInt8 → Option Nat
  | seen, 0, _, _, _ => some seen
  | _, _ + 1, _, _, [] => none
  | seen, count + 1, low, high, byte :: rest =>
      if low ≤ byte ∧ byte ≤ high then brokenAfter (seen + 1) count 0x80 0xBF rest
      else some seen

/-- The length of the ill-formed sequence at the head of some bytes. -/
def faultLength : List UInt8 → Option Nat
  | [] => none
  | lead :: rest =>
      match following? lead with
      | none => some 1
      | some (count, low, high) => brokenAfter 1 count low high rest

/-- The fault of bytes that are not UTF-8.  Four bytes are enough to see it. -/
def faultOf (bytes : ByteArray) : Fault :=
  let stop := wholeUpTo bytes 0
  { validUpTo := stop
    length := faultLength (bytes.extract stop (stop + 4)).data.toList }

def decode (bytes : ByteArray) : Except Fault String :=
  if valid : bytes.IsValidUTF8 then .ok (String.fromUTF8 bytes valid)
  else .error (faultOf bytes)

theorem decode_toUTF8 (text : String) : decode text.toUTF8 = .ok text := by
  have valid : text.toUTF8.IsValidUTF8 := text.isValidUTF8
  rw [decode, dif_pos valid]
  rfl

theorem toUTF8_of_decode {bytes : ByteArray} {text : String}
    (decoded : decode bytes = .ok text) : text.toUTF8 = bytes := by
  rw [decode] at decoded
  split at decoded
  · cases decoded
    rfl
  · contradiction

end TransferLedger.Text.Utf8
