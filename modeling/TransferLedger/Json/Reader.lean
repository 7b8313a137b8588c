import TransferLedger.Json.Token

/-! Documents assembled from tokens.

The assembler keeps the containers that are still open on a stack of its own,
so documents may nest to any depth, and one step per token makes the whole
reading a fold.
-/

namespace TransferLedger.Json

/-- A container that waits for a value.  What it holds already is kept last one
first. -/
inductive Frame where
  | array (items : List Json)
  | object (members : List (Literal × Json)) (key : Literal)

/-- What may come next, inside the open containers `stack`.  Right after an
opening bracket the container may also close. -/
inductive Stage where
  | wantValue (stack : List Frame)
  | wantItem (stack : List Frame)
  | wantMember (stack : List Frame)
  | wantKey (stack : List Frame) (members : List (Literal × Json))
  | wantColon (stack : List Frame) (members : List (Literal × Json)) (key : Literal)
  | afterItem (stack : List Frame) (items : List Json)
  | afterMember (stack : List Frame) (members : List (Literal × Json))
  | whole (value : Json)

namespace Stage

/-- Gives a finished value to the innermost container. -/
def put (value : Json) : List Frame → Stage
  | [] => .whole value
  | .array items :: stack => .afterItem stack (value :: items)
  | .object members key :: stack => .afterMember stack ((key, value) :: members)

def begin? (stack : List Frame) : Token → Option Stage
  | .null => some (put .null stack)
  | .bool value => some (put (.bool value) stack)
  | .number value => some (put (.number value) stack)
  | .string value => some (put (.string value) stack)
  | .openArray => some (.wantItem stack)
  | .openObject => some (.wantMember stack)
  | _ => none

def step : Stage → Token → Option Stage
  | .wantValue stack, token => begin? stack token
  | .wantItem stack, .closeArray => some (put (.array []) stack)
  | .wantItem stack, token => begin? (.array [] :: stack) token
  | .wantMember stack, .closeObject => some (put (.object []) stack)
  | .wantMember stack, .string key => some (.wantColon stack [] key)
  | .wantKey stack members, .string key => some (.wantColon stack members key)
  | .wantColon stack members key, .colon => some (.wantValue (.object members key :: stack))
  | .afterItem stack items, .comma => some (.wantValue (.array items :: stack))
  | .afterItem stack items, .closeArray => some (put (.array items.reverse) stack)
  | .afterMember stack members, .comma => some (.wantKey stack members)
  | .afterMember stack members, .closeObject => some (put (.object members.reverse) stack)
  | _, _ => none

def finish? : Stage → Option Json
  | .whole value => some value
  | _ => none

end Stage

def ofTokens? (tokens : List Token) : Option Json := do
  (← tokens.foldlM Stage.step (.wantValue [])).finish?

def read? (text : String) : Option Json := do
  ofTokens? (← tokens? text.toList)

end TransferLedger.Json
