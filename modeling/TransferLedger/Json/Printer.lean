import TransferLedger.Json
import TransferLedger.Bytes.Hex

/-! JSON documents written out.

A style says what separates the parts of a container, and nothing else differs
between the compact and the indented form.  Strings escape quotes, backslashes
and the controls below U+0020; every other character stands for itself.
-/

namespace TransferLedger.Json

/-- The blanks of a written form: the break before a part that stands at a given
depth, and what separates a key from its value. -/
structure Style where
  lineBreak : Nat → List Char
  colon : List Char

namespace Style

def compact : Style where
  lineBreak _ := []
  colon := [':']

def indented : Style where
  lineBreak depth := '\n' :: List.replicate (2 * depth) ' '
  colon := [':', ' ']

end Style

def escape (c : Char) : List Char :=
  if c = '"' then ['\\', '"']
  else if c = '\\' then ['\\', '\\']
  else if c = '\x08' then ['\\', 'b']
  else if c = '\x0c' then ['\\', 'f']
  else if c = '\n' then ['\\', 'n']
  else if c = '\r' then ['\\', 'r']
  else if c = '\t' then ['\\', 't']
  else if c.toNat < 0x20 then '\\' :: 'u' :: Bytes.Hex.encode [0, UInt8.ofNat c.toNat]
  else [c]

/-- A literal without text is written as half of a surrogate pair. -/
def Literal.render (literal : Literal) (rest : List Char) : List Char :=
  match literal with
  | .text value => '"' :: (value.toList.flatMap escape ++ '"' :: rest)
  | .unpaired => "\"\\ud800\"".toList ++ rest

def Numeral.render (numeral : Numeral) (rest : List Char) : List Char :=
  match numeral with
  | .integer value => (toString value).toList ++ rest
  | .real text => text.toList ++ rest

mutual

/-- The document as it stands at `depth`, followed by `rest`. -/
def render (style : Style) (depth : Nat) : Json → List Char → List Char
  | .null, rest => "null".toList ++ rest
  | .bool true, rest => "true".toList ++ rest
  | .bool false, rest => "false".toList ++ rest
  | .number value, rest => value.render rest
  | .string value, rest => value.render rest
  | .array [], rest => '[' :: ']' :: rest
  | .array (item :: items), rest =>
      '[' :: (style.lineBreak (depth + 1) ++
        render style (depth + 1) item
          (renderItems style (depth + 1) items (style.lineBreak depth ++ ']' :: rest)))
  | .object [], rest => '\x7b' :: '\x7d' :: rest
  | .object ((key, value) :: members), rest =>
      '\x7b' :: (style.lineBreak (depth + 1) ++
        key.render (style.colon ++ render style (depth + 1) value
          (renderMembers style (depth + 1) members (style.lineBreak depth ++ '\x7d' :: rest))))

def renderItems (style : Style) (depth : Nat) : List Json → List Char → List Char
  | [], rest => rest
  | item :: items, rest =>
      ',' :: (style.lineBreak depth ++ render style depth item (renderItems style depth items rest))

/-- Members after the first, each behind a comma. -/
def renderMembers (style : Style) (depth : Nat) : List (Literal × Json) → List Char → List Char
  | [], rest => rest
  | (key, value) :: members, rest =>
      ',' :: (style.lineBreak depth ++ key.render (style.colon ++
        render style depth value (renderMembers style depth members rest)))

end

def compact (json : Json) : String :=
  String.ofList (json.render .compact 0 [])

def pretty (json : Json) : String :=
  String.ofList (json.render .indented 0 [])

end TransferLedger.Json
