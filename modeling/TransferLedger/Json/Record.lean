import TransferLedger.Json

/-! Records read from documents.

A record with named fields is written as an object, where unknown members are
passed over and a field may not be given twice, or as an array of the first
fields in their order.  Both become one list of slots, a slot for each field.
-/

namespace TransferLedger.Json

def named? (members : List (Literal × Json)) : Option (List (String × Json)) :=
  members.mapM fun member => member.1.text?.map fun key => (key, member.2)

/-- What is given for each of the named fields, in the order of the names. -/
def slots? (names : List String) : Json → Option (List (Option Json))
  | .array items =>
      if items.length ≤ names.length then
        some (items.map some ++ List.replicate (names.length - items.length) none)
      else none
  | .object members => do
      let members ← named? members
      if names.all fun name => (members.filter fun member => member.1 == name).length ≤ 1 then
        some (names.map fun name => (members.find? fun member => member.1 == name).map Prod.snd)
      else none
  | _ => none

abbrev FieldReader := StateT (List (Option Json)) Option

def required {α : Type} (decode : Json → Option α) : FieldReader α
  | some json :: slots => (decode json).map fun value => (value, slots)
  | _ => none

def withDefault {α : Type} (default : α) (decode : Json → Option α) : FieldReader α
  | some json :: slots => (decode json).map fun value => (value, slots)
  | none :: slots => some (default, slots)
  | [] => none

def readRecord? {α : Type} (names : List String) (reader : FieldReader α) (json : Json) :
    Option α := do
  let slots ← json.slots? names
  let (value, _) ← reader slots
  some value

end TransferLedger.Json
