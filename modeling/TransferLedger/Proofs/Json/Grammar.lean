import TransferLedger.Json.Token

/-! The texts that are JSON.

The grammar has two layers.  The lower one says which characters spell a token, whatever the
token stands for: a number may have a fraction and an exponent, and a string may spell the same
text with escapes or without.  The upper one says which tokens a document is made of.  Between
the tokens there may be blanks.
-/

namespace TransferLedger.Json

/-! ## Numbers -/

/-- One digit or more. -/
def Digits (text : List Char) : Prop :=
  text ≠ [] ∧ ∀ c ∈ text, c.isDigit = true

instance (text : List Char) : Decidable (Digits text) :=
  @instDecidableAnd _ _ inferInstance (List.decidableBAll (fun c => c.isDigit = true) text)

/-- Digits that do not begin with a zero, unless they are a single one. -/
structure Whole (text : List Char) : Prop where
  digits : Digits text
  leading : text.head? = some '0' → text = ['0']

inductive Fraction : List Char → Prop where
  | absent : Fraction []
  | point {text : List Char} (digits : Digits text) : Fraction ('.' :: text)

inductive Exponent : List Char → Prop where
  | absent : Exponent []
  | power {mark : Char} {sign text : List Char} (letter : mark = 'e' ∨ mark = 'E')
      (signed : sign ∈ [[], ['+'], ['-']]) (digits : Digits text) :
      Exponent (mark :: (sign ++ text))

/-- The spellings of a number.  An integer is spelled by its digits alone, and zero without a
sign; everything else stands for itself. -/
inductive Numeral.Spells : Numeral → List Char → Prop where
  | natural {text : List Char} (whole : Whole text) :
      Spells (.integer (Nat.ofDigitChars 10 text 0)) text
  | negative {text : List Char} (whole : Whole text) (nonzero : text ≠ ['0']) :
      Spells (.integer (-(Nat.ofDigitChars 10 text 0 : Int))) ('-' :: text)
  | negativeZero : Spells (.real "-0") ['-', '0']
  | real {sign whole fraction exponent : List Char} (signed : sign ∈ [[], ['-']])
      (isWhole : Whole whole) (isFraction : Fraction fraction) (isExponent : Exponent exponent)
      (proper : fraction ++ exponent ≠ []) :
      Spells (.real (String.ofList (sign ++ (whole ++ (fraction ++ exponent)))))
        (sign ++ (whole ++ (fraction ++ exponent)))

/-! ## Strings -/

/-- What a part of a string stands for.  An escape can name half of a surrogate pair. -/
inductive Piece where
  | char (value : Char)
  | high (unit : Nat)
  | low (unit : Nat)

/-- The characters that a backslash and a letter spell. -/
def shortEscapes : List (Char × Char) :=
  [('"', '"'), ('\\', '\\'), ('/', '/'), ('b', '\x08'), ('f', '\x0c'), ('n', '\n'), ('r', '\r'),
    ('t', '\t')]

/-- The number that four hexadecimal digits of either case stand for. -/
def unit? : List Char → Option Nat
  | [first, second, third, fourth] => do
      let first ← Bytes.Hex.digitValue? first
      let second ← Bytes.Hex.digitValue? second
      let third ← Bytes.Hex.digitValue? third
      let fourth ← Bytes.Hex.digitValue? fourth
      some (4096 * first + 256 * second + 16 * third + fourth)
  | _ => none

inductive Piece.Spells : Piece → List Char → Prop where
  | plain {c : Char} (noQuote : c ≠ '"') (noBackslash : c ≠ '\\') (noControl : 0x20 ≤ c.toNat) :
      Spells (.char c) [c]
  | short {letter c : Char} (known : (letter, c) ∈ shortEscapes) : Spells (.char c) ['\\', letter]
  | unit {digits : List Char} {unit : Nat} (value : unit? digits = some unit)
      (whole : unit < 0xD800 ∨ 0xE000 ≤ unit) :
      Spells (.char (Char.ofNat unit)) ('\\' :: 'u' :: digits)
  | high {digits : List Char} {unit : Nat} (value : unit? digits = some unit)
      (range : 0xD800 ≤ unit ∧ unit < 0xDC00) : Spells (.high unit) ('\\' :: 'u' :: digits)
  | low {digits : List Char} {unit : Nat} (value : unit? digits = some unit)
      (range : 0xDC00 ≤ unit ∧ unit < 0xE000) : Spells (.low unit) ('\\' :: 'u' :: digits)

/-- The characters of a string, if the halves in it make pairs. -/
def joined? : List Piece → Option (List Char)
  | [] => some []
  | .char c :: rest => (joined? rest).map (c :: ·)
  | .high high :: .low low :: rest =>
      (joined? rest).map
        (Char.ofNat (0x10000 + (high - 0xD800) * 0x400 + (low - 0xDC00)) :: ·)
  | .high _ :: _ => none
  | .low _ :: _ => none

def Literal.ofChars? : Option (List Char) → Literal
  | some chars => .text (String.ofList chars)
  | none => .unpaired

def Literal.ofPieces (pieces : List Piece) : Literal :=
  .ofChars? (joined? pieces)

inductive SpellPieces : List Piece → List Char → Prop where
  | nil : SpellPieces [] []
  | cons {piece : Piece} {pieces : List Piece} {text rest : List Char} (first : piece.Spells text)
      (later : SpellPieces pieces rest) : SpellPieces (piece :: pieces) (text ++ rest)

/-! ## Tokens -/

def marks : List (Token × Char) :=
  [(.openArray, '['), (.closeArray, ']'), (.openObject, '\x7b'), (.closeObject, '\x7d'),
    (.comma, ','), (.colon, ':')]

inductive Token.Spells : Token → List Char → Prop where
  | mark {token : Token} {c : Char} (known : (token, c) ∈ marks) : Spells token [c]
  | null : Spells .null ['n', 'u', 'l', 'l']
  | true : Spells (.bool true) ['t', 'r', 'u', 'e']
  | false : Spells (.bool false) ['f', 'a', 'l', 's', 'e']
  | number {numeral : Numeral} {text : List Char} (spelled : numeral.Spells text) :
      Spells (.number numeral) text
  | string {pieces : List Piece} {text : List Char} (spelled : SpellPieces pieces text) :
      Spells (.string (.ofPieces pieces)) ('"' :: (text ++ ['"']))

/-- Characters that may stand between tokens. -/
def Blank (blanks : List Char) : Prop :=
  ∀ c ∈ blanks, c ∈ [' ', '\n', '\t', '\r']

instance (blanks : List Char) : Decidable (Blank blanks) :=
  List.decidableBAll (fun c => c ∈ [' ', '\n', '\t', '\r']) blanks

inductive SpellTokens : List Token → List Char → Prop where
  | nil {gap : List Char} (blank : Blank gap) : SpellTokens [] gap
  | cons {token : Token} {tokens : List Token} {gap text rest : List Char} (blank : Blank gap)
      (first : token.Spells text) (later : SpellTokens tokens rest) :
      SpellTokens (token :: tokens) (gap ++ (text ++ rest))

/-! ## Documents -/

mutual

def tokens : Json → List Token
  | .null => [.null]
  | .bool value => [.bool value]
  | .number value => [.number value]
  | .string value => [.string value]
  | .array [] => [.openArray, .closeArray]
  | .array (item :: items) => .openArray :: (tokens item ++ (itemTokens items ++ [.closeArray]))
  | .object [] => [.openObject, .closeObject]
  | .object ((key, value) :: members) =>
      .openObject :: .string key :: .colon ::
        (tokens value ++ (memberTokens members ++ [.closeObject]))

def itemTokens : List Json → List Token
  | [] => []
  | item :: items => .comma :: (tokens item ++ itemTokens items)

def memberTokens : List (Literal × Json) → List Token
  | [] => []
  | (key, value) :: members =>
      .comma :: .string key :: .colon :: (tokens value ++ memberTokens members)

end

/-- The text is a document, written in whatever way. -/
def Spells (json : Json) (text : String) : Prop :=
  SpellTokens json.tokens text.toList

end TransferLedger.Json
