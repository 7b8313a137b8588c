/-! Blank characters: those with the Unicode property White_Space. -/

namespace TransferLedger.Text.Blank

/-- The code points with the property White_Space, as closed ranges. -/
def ranges : List (Nat × Nat) :=
  [(0x09, 0x0D), (0x20, 0x20), (0x85, 0x85), (0xA0, 0xA0), (0x1680, 0x1680),
    (0x2000, 0x200A), (0x2028, 0x2029), (0x202F, 0x202F), (0x205F, 0x205F), (0x3000, 0x3000)]

def isBlank (c : Char) : Bool :=
  ranges.any fun range => range.1 ≤ c.toNat && c.toNat ≤ range.2

def skip (text : List Char) : List Char :=
  text.dropWhile isBlank

end TransferLedger.Text.Blank
