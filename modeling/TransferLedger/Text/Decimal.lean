/-! Decimal digits: numbers written with a least width, and digit runs read back. -/

namespace TransferLedger.Text.Decimal

/-- The digits of a number, with leading zeros up to `width` of them. -/
def padded (width number : Nat) : List Char :=
  let digits := Nat.toDigits 10 number
  List.replicate (width - digits.length) '0' ++ digits

/-! ## The number a run of digits denotes

Adding the digits one at a time multiplies the whole number by ten at each, which
takes too long for a run of a million.  The digits are instead kept in blocks of
one, two, four digits and so on, the latest first, and two blocks of one length
are joined into one of the next.
-/

/-- Adds a block below those kept.  `base` is the power of ten that its length
stands for, and `none` stands for a length of which no block is kept. -/
def push (base block : Nat) : List (Option Nat) → List (Option Nat)
  | [] => [some block]
  | none :: longer => some block :: longer
  | some high :: longer => none :: push (base * base) (base * high + block) longer

/-- The number that the blocks make together. -/
def total (base : Nat) : List (Option Nat) → Nat
  | [] => 0
  | none :: longer => total (base * base) longer
  | some block :: longer => base * total (base * base) longer + block

/-- The number that a run of digits denotes. -/
def value (digits : List Char) : Nat :=
  total 10 (digits.foldl (fun blocks c => push 10 (c.toNat - '0'.toNat) blocks) [])

/-- The digits at the front, at most `width` of them. -/
def leading (width : Nat) (text : List Char) : List Char :=
  (text.take width).takeWhile Char.isDigit

def read? (width : Nat) (text : List Char) : Option (Nat × List Char) :=
  let digits := leading width text
  if digits.isEmpty then none else some (value digits, text.drop digits.length)

theorem total_push (base block : Nat) (blocks : List (Option Nat)) :
    total base (push base block blocks) = base * total base blocks + block := by
  induction blocks generalizing base block with
  | nil => rfl
  | cons shortest longer ih =>
      cases shortest with
      | none => rfl
      | some high =>
          simp only [push, total, ih]
          rw [Nat.mul_add, Nat.mul_assoc, Nat.add_assoc]

/-- The blocks denote what the digits do one at a time. -/
theorem value_eq_ofDigitChars (digits : List Char) :
    value digits = Nat.ofDigitChars 10 digits 0 := by
  have added (blocks : List (Option Nat)) :
      total 10 (digits.foldl (fun blocks c => push 10 (c.toNat - '0'.toNat) blocks) blocks) =
        Nat.ofDigitChars 10 digits (total 10 blocks) := by
    induction digits generalizing blocks with
    | nil => rfl
    | cons digit rest ih =>
        rw [List.foldl_cons, ih, total_push, Nat.ofDigitChars_cons]
  exact added []

theorem value_padded (width number : Nat) : value (padded width number) = number := by
  rw [padded, value_eq_ofDigitChars, Nat.ofDigitChars_append, Nat.ofDigitChars_replicate_zero,
    Nat.mul_zero]
  exact Nat.ofDigitChars_ten_toDigits

end TransferLedger.Text.Decimal
