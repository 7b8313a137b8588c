/-! Numbers stored least significant byte first.

A word of `width` bytes holds the numbers below `bound width`; writing such a
number and reading it back gives the same number, and reading any word and
writing it back gives the same bytes.
-/

namespace TransferLedger.Bytes.LittleEndian

/-- How many numbers fit in a word of `width` bytes. -/
def bound : (width : Nat) → Nat
  | 0 => 1
  | width + 1 => 256 * bound width

/-- The `width` low base-256 digits of `value`, least significant first. -/
def digits : (width value : Nat) → List UInt8
  | 0, _ => []
  | width + 1, value => UInt8.ofNat value :: digits width (value / 256)

/-- The number whose base-256 digits, least significant first, are given. -/
def value : List UInt8 → Nat
  | [] => 0
  | low :: rest => low.toNat + 256 * value rest

def encode (width number : Nat) : ByteArray :=
  (digits width number).toByteArray

def decode (bytes : ByteArray) : Nat :=
  value bytes.data.toList

theorem length_digits (width number : Nat) : (digits width number).length = width := by
  induction width generalizing number with
  | zero => rfl
  | succ width ih => simp [digits, ih]

theorem value_digits {width number : Nat} (fits : number < bound width) :
    value (digits width number) = number := by
  induction width generalizing number with
  | zero => simp only [bound] at fits; simp [digits, value]; omega
  | succ width ih =>
      have rest : number / 256 < bound width := Nat.div_lt_of_lt_mul fits
      simp only [digits, value, ih rest, UInt8.toNat_ofNat']
      omega

theorem digits_value (bytes : List UInt8) : digits bytes.length (value bytes) = bytes := by
  induction bytes with
  | nil => rfl
  | cons low rest ih =>
      have low_lt : low.toNat < 256 := low.toNat_lt
      have quotient : (low.toNat + 256 * value rest) / 256 = value rest := by omega
      have head : UInt8.ofNat (low.toNat + 256 * value rest) = low := by
        apply UInt8.toNat_inj.mp
        rw [UInt8.toNat_ofNat']
        omega
      simp only [List.length_cons, digits, value, quotient, ih, head]

theorem value_lt (bytes : List UInt8) : value bytes < bound bytes.length := by
  induction bytes with
  | nil => simp [value, bound]
  | cons low rest ih =>
      have low_lt : low.toNat < 256 := low.toNat_lt
      simp only [value, List.length_cons, bound]
      omega

theorem size_encode (width number : Nat) : (encode width number).size = width := by
  simp [encode, length_digits]

theorem decode_encode {width number : Nat} (fits : number < bound width) :
    decode (encode width number) = number := by
  rw [decode, encode, List.data_toByteArray]
  exact value_digits fits

theorem encode_decode (bytes : ByteArray) : encode bytes.size (decode bytes) = bytes := by
  have stored := digits_value bytes.data.toList
  rw [Array.length_toList] at stored
  apply ByteArray.ext
  rw [encode, List.data_toByteArray]
  exact Array.toList_inj.mp stored

theorem decode_lt (bytes : ByteArray) : decode bytes < bound bytes.size := by
  have below := value_lt bytes.data.toList
  rw [Array.length_toList] at below
  exact below

end TransferLedger.Bytes.LittleEndian
