/-! JSON documents.

A document keeps what later readers may ask for and nothing else: the order of
the members of an object, repeated keys, and whether a number was written as an
integer.  A string literal may hold an escape for half of a surrogate pair; such
a literal is well formed but denotes no text.
-/

namespace TransferLedger

/-- What a string literal denotes. -/
inductive Json.Literal where
  | text (value : String)
  | unpaired
  deriving DecidableEq, Repr, Inhabited

/-- A number as it was written.  `-0` and every number with a fraction or an
exponent is `real`, even if its value is whole. -/
inductive Json.Numeral where
  | integer (value : Int)
  | real (text : String)
  deriving DecidableEq, Repr, Inhabited

inductive Json where
  | null
  | bool (value : Bool)
  | number (value : Json.Numeral)
  | string (value : Json.Literal)
  | array (items : List Json)
  | object (members : List (Json.Literal × Json))
  deriving Inhabited

namespace Json

def Literal.text? : Literal → Option String
  | .text value => some value
  | .unpaired => none

def ofText (value : String) : Json :=
  .string (.text value)

def ofInt (value : Int) : Json :=
  .number (.integer value)

def ofNat (value : Nat) : Json :=
  ofInt value

def record (members : List (String × Json)) : Json :=
  .object (members.map fun member => (.text member.1, member.2))

def text? : Json → Option String
  | .string literal => literal.text?
  | _ => none

def bool? : Json → Option Bool
  | .bool value => some value
  | _ => none

def int? : Json → Option Int
  | .number (.integer value) => some value
  | _ => none

def intWithin? (low high : Int) (json : Json) : Option Int := do
  let value ← json.int?
  if low ≤ value ∧ value ≤ high then some value else none

def natBelow? (bound : Nat) (json : Json) : Option Nat := do
  let value ← json.int?
  if 0 ≤ value ∧ value < bound then some value.toNat else none

def uint32? (json : Json) : Option UInt32 :=
  (json.natBelow? UInt32.size).map UInt32.ofNat

def uint64? (json : Json) : Option UInt64 :=
  (json.natBelow? UInt64.size).map UInt64.ofNat

def int32? (json : Json) : Option Int32 :=
  (json.intWithin? Int32.minValue.toInt Int32.maxValue.toInt).map Int32.ofInt

def items? : Json → Option (List Json)
  | .array items => some items
  | _ => none

def list? {α : Type} (decode : Json → Option α) (json : Json) : Option (List α) := do
  (← json.items?).mapM decode

def nullable? {α : Type} (decode : Json → Option α) : Json → Option (Option α)
  | .null => some none
  | json => (decode json).map some

end Json

end TransferLedger
