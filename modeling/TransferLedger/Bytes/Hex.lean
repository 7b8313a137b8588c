/-! Bytes written as pairs of hexadecimal digits.

Writing uses lower-case digits, high half first; reading takes digits of either
case and fails on anything else, on an odd count as well.
-/

namespace TransferLedger.Bytes.Hex

def digit (number : Nat) : Char :=
  if number < 10 then Char.ofNat (48 + number) else Char.ofNat (87 + number)

/-- The value of a hexadecimal digit of either case. -/
def digitValue? (c : Char) : Option Nat :=
  let code := c.toNat
  if 48 ≤ code ∧ code ≤ 57 then some (code - 48)
  else if 97 ≤ code ∧ code ≤ 102 then some (code - 87)
  else if 65 ≤ code ∧ code ≤ 70 then some (code - 55)
  else none

def ofByte (byte : UInt8) : List Char :=
  [digit (byte.toNat / 16), digit (byte.toNat % 16)]

def encode (bytes : List UInt8) : List Char :=
  bytes.flatMap ofByte

def decode? : List Char → Option (List UInt8)
  | [] => some []
  | [_] => none
  | high :: low :: rest => do
      let upper ← digitValue? high
      let lower ← digitValue? low
      let bytes ← decode? rest
      some (UInt8.ofNat (16 * upper + lower) :: bytes)

theorem digitValue?_digit {number : Nat} (small : number < 16) :
    digitValue? (digit number) = some number := by
  have cases : ∀ n : Fin 16, digitValue? (digit n.val) = some n.val := by decide
  exact cases ⟨number, small⟩

theorem decode?_encode (bytes : List UInt8) : decode? (encode bytes) = some bytes := by
  induction bytes with
  | nil => rfl
  | cons byte rest ih =>
      have byte_lt : byte.toNat < 256 := byte.toNat_lt
      have whole : UInt8.ofNat (16 * (byte.toNat / 16) + byte.toNat % 16) = byte := by
        rw [Nat.div_add_mod, UInt8.ofNat_toNat]
      change decode? (digit (byte.toNat / 16) :: digit (byte.toNat % 16) :: encode rest) = _
      simp only [decode?, digitValue?_digit (show byte.toNat / 16 < 16 by omega),
        digitValue?_digit (show byte.toNat % 16 < 16 by omega), ih, Option.bind_eq_bind,
        Option.bind_some, whole]

end TransferLedger.Bytes.Hex
