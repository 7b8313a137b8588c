import TransferLedger.Json

/-! Closed lists of named values that are stored as numbers.

Each value has one number and one label.  A number or label that belongs to no
value is unknown; numbers and labels read back as the values they came from.
-/

namespace TransferLedger

/-- A stored number that belongs to no value of its kind. -/
structure UnknownValue where
  kind : String
  raw : Int
  deriving DecidableEq, Repr

def UnknownValue.message (unknown : UnknownValue) : String :=
  "unknown " ++ unknown.kind ++ " value: " ++ toString unknown.raw

class Coded (α : Type) where
  kind : String
  values : List α
  code : α → Int
  label : α → String
  mem_values : ∀ value, value ∈ values
  code_injective : ∀ left right, code left = code right → left = right
  label_injective : ∀ left right, label left = label right → left = right

namespace Coded

variable {α : Type} [Coded α]

def ofCode (raw : Int) : Except UnknownValue α :=
  match (values : List α).find? fun value => code value == raw with
  | some value => .ok value
  | none => .error { kind := kind α, raw }

def ofLabel? (text : String) : Option α :=
  (values : List α).find? fun value => label value == text

/-- Capitalizes the words of a label and joins them. -/
def capitalized : Bool → List Char → List Char
  | _, [] => []
  | _, '_' :: rest => capitalized true rest
  | true, c :: rest => c.toUpper :: capitalized false rest
  | false, c :: rest => c :: capitalized false rest

def name (value : α) : String :=
  String.ofList (capitalized true (label value).toList)

def toJson (value : α) : Json :=
  .ofText (label value)

/-- A label, or an object whose one member has the label as its key and `null`
as its value. -/
def ofJson? : Json → Option α
  | .string literal => literal.text? >>= ofLabel?
  | .object [(key, .null)] => key.text? >>= ofLabel?
  | _ => none

theorem ofCode_code (value : α) : ofCode (code value) = .ok value := by
  rw [ofCode]
  cases found : (values : List α).find? fun other => code other == code value with
  | none =>
      have absent := List.find?_eq_none.mp found value (mem_values value)
      simp at absent
  | some other =>
      have same := List.find?_some found
      rw [code_injective other value (by simpa using same)]

theorem code_of_ofCode {raw : Int} {value : α} (known : ofCode raw = .ok value) :
    code value = raw := by
  rw [ofCode] at known
  split at known
  next found =>
    have same := List.find?_some found
    cases known
    simpa using same
  next => contradiction

theorem ofLabel?_label (value : α) : ofLabel? (label value) = some value := by
  rw [ofLabel?]
  cases found : (values : List α).find? fun other => label other == label value with
  | none =>
      have absent := List.find?_eq_none.mp found value (mem_values value)
      simp at absent
  | some other =>
      have same := List.find?_some found
      rw [label_injective other value (by simpa using same)]

theorem ofJson?_toJson (value : α) : ofJson? (toJson value) = some value :=
  ofLabel?_label value

end Coded

end TransferLedger
