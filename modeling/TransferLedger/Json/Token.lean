import TransferLedger.Json
import TransferLedger.Bytes.Hex
import TransferLedger.Text.Decimal

/-! The tokens of a JSON text.

The scanner is a machine that takes one character at a time, so the tokens of a
text are a fold over its characters and a run over two joined texts is the one
run after the other.
-/

namespace TransferLedger.Json

inductive Token where
  | openArray
  | closeArray
  | openObject
  | closeObject
  | comma
  | colon
  | null
  | bool (value : Bool)
  | number (value : Numeral)
  | string (value : Literal)
  deriving DecidableEq, Repr

/-- The fraction and exponent that may follow the integer part of a number. -/
def isNumeralTail (text : List Char) : Bool :=
  let exponent (text : List Char) : Bool :=
    match text with
    | [] => true
    | 'e' :: '+' :: digits => !digits.isEmpty && digits.all Char.isDigit
    | 'e' :: '-' :: digits => !digits.isEmpty && digits.all Char.isDigit
    | 'e' :: digits => !digits.isEmpty && digits.all Char.isDigit
    | _ => false
  match text.map Char.toLower with
  | '.' :: rest => !(rest.takeWhile Char.isDigit).isEmpty && exponent (rest.dropWhile Char.isDigit)
  | rest => exponent rest

/-- Reads a number: an integer part without leading zeros, then perhaps a
fraction and an exponent. -/
def Numeral.read? (text : List Char) : Option Numeral :=
  let negative := text.head? = some '-'
  let unsigned := if negative then text.drop 1 else text
  let whole := unsigned.takeWhile Char.isDigit
  let tail := unsigned.dropWhile Char.isDigit
  if whole.isEmpty || (whole.head? = some '0' && whole.length ≠ 1) then none
  else if tail.isEmpty then
    if negative && whole = ['0'] then some (.real "-0")
    else
      let size : Int := Text.Decimal.value whole
      some (.integer (if negative then -size else size))
  else if isNumeralTail tail then some (.real (String.ofList text))
  else none

/-- A string literal while its characters arrive, the last one first.  `high?`
is the first half of a surrogate pair whose second half must come next. -/
structure Draft where
  chars : List Char := []
  high? : Option Nat := none
  paired : Bool := true

namespace Draft

def add (draft : Draft) (c : Char) : Draft :=
  { chars := c :: draft.chars, high? := none, paired := draft.paired && draft.high?.isNone }

/-- Adds the UTF-16 code unit of an escape. -/
def addUnit (draft : Draft) (unit : Nat) : Draft :=
  if 0xD800 ≤ unit ∧ unit < 0xDC00 then
    { draft with high? := some unit, paired := draft.paired && draft.high?.isNone }
  else if 0xDC00 ≤ unit ∧ unit < 0xE000 then
    match draft.high? with
    | some high =>
        { draft with
          chars := Char.ofNat (0x10000 + (high - 0xD800) * 0x400 + (unit - 0xDC00)) :: draft.chars
          high? := none }
    | none => { draft with paired := false }
  else draft.add (Char.ofNat unit)

def literal (draft : Draft) : Literal :=
  if draft.paired && draft.high?.isNone then .text (String.ofList draft.chars.reverse)
  else .unpaired

end Draft

/-- Where the scanner stands.  The letters of a word and the characters of a
number are kept last one first. -/
inductive Scanner.Mode where
  | gap
  | word (letters : List Char)
  | numeral (chars : List Char)
  | text (draft : Draft)
  | escape (draft : Draft)
  | hex (draft : Draft) (unit count : Nat)

/-- The scanner's mode and the tokens so far, the last one first. -/
structure Scanner where
  mode : Scanner.Mode := .gap
  tokens : List Token := []

namespace Scanner

def word? (letters : List Char) : Option Token :=
  if letters = ['n', 'u', 'l', 'l'] then some .null
  else if letters = ['t', 'r', 'u', 'e'] then some (.bool true)
  else if letters = ['f', 'a', 'l', 's', 'e'] then some (.bool false)
  else none

def escaped? : Char → Option Char
  | '"' => some '"'
  | '\\' => some '\\'
  | '/' => some '/'
  | 'b' => some '\x08'
  | 'f' => some '\x0c'
  | 'n' => some '\n'
  | 'r' => some '\r'
  | 't' => some '\t'
  | _ => none

def isNumeralChar (c : Char) : Bool :=
  c.isDigit || c = '-' || c = '+' || c = '.' || c = 'e' || c = 'E'

def start (tokens : List Token) (c : Char) : Option Scanner :=
  if c = ' ' || c = '\t' || c = '\n' || c = '\r' then some { tokens }
  else if c = '[' then some { tokens := .openArray :: tokens }
  else if c = ']' then some { tokens := .closeArray :: tokens }
  else if c = '\x7b' then some { tokens := .openObject :: tokens }
  else if c = '\x7d' then some { tokens := .closeObject :: tokens }
  else if c = ',' then some { tokens := .comma :: tokens }
  else if c = ':' then some { tokens := .colon :: tokens }
  else if c = '"' then some { mode := .text {}, tokens }
  else if c = '-' || c.isDigit then some { mode := .numeral [c], tokens }
  else if c.isLower then some { mode := .word [c], tokens }
  else none

def step (scanner : Scanner) (c : Char) : Option Scanner :=
  match scanner.mode with
  | .gap => start scanner.tokens c
  | .word letters =>
      if c.isLower then some { scanner with mode := .word (c :: letters) }
      else do
        let token ← word? letters.reverse
        start (token :: scanner.tokens) c
  | .numeral chars =>
      if isNumeralChar c then some { scanner with mode := .numeral (c :: chars) }
      else do
        let number ← Numeral.read? chars.reverse
        start (.number number :: scanner.tokens) c
  | .text draft =>
      if c = '"' then some { tokens := .string draft.literal :: scanner.tokens }
      else if c = '\\' then some { scanner with mode := .escape draft }
      else if c.toNat < 0x20 then none
      else some { scanner with mode := .text (draft.add c) }
  | .escape draft =>
      if c = 'u' then some { scanner with mode := .hex draft 0 0 }
      else (escaped? c).map fun plain => { scanner with mode := .text (draft.add plain) }
  | .hex draft unit count => do
      let value ← Bytes.Hex.digitValue? c
      let unit := 16 * unit + value
      if count = 3 then some { scanner with mode := .text (draft.addUnit unit) }
      else some { scanner with mode := .hex draft unit (count + 1) }

/-- The tokens at the end of the text.  A string must have been closed. -/
def finish? (scanner : Scanner) : Option (List Token) :=
  match scanner.mode with
  | .gap => some scanner.tokens.reverse
  | .word letters => (word? letters.reverse).map fun token => (token :: scanner.tokens).reverse
  | .numeral chars =>
      (Numeral.read? chars.reverse).map fun number => (.number number :: scanner.tokens).reverse
  | _ => none

end Scanner

def tokens? (text : List Char) : Option (List Token) := do
  (← text.foldlM Scanner.step {}).finish?

end TransferLedger.Json
