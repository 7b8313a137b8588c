import TransferLedger.Json.Printer
import TransferLedger.Proofs.Decimal
import TransferLedger.Proofs.Json.Reader

/-! Written documents read back.

What is written of a document whose numbers are integers and whose literals are text is a
spelling of it, in every style.
-/

namespace TransferLedger.Json

mutual

/-- The document holds integers and texts only. -/
def Plain : Json → Prop
  | .null => True
  | .bool _ => True
  | .number (.integer _) => True
  | .number (.real _) => False
  | .string (.text _) => True
  | .string .unpaired => False
  | .array items => PlainItems items
  | .object members => PlainMembers members

def PlainItems : List Json → Prop
  | [] => True
  | item :: items => Plain item ∧ PlainItems items

def PlainMembers : List (Literal × Json) → Prop
  | [] => True
  | (.text _, value) :: members => Plain value ∧ PlainMembers members
  | (.unpaired, _) :: _ => False

end

/-! ## Numbers -/

section

variable {number : Nat}

theorem whole_toDigits (number : Nat) : Whole (Nat.toDigits 10 number) where
  digits := ⟨Nat.toDigits_ne_nil, fun _ member =>
    Nat.isDigit_of_mem_toDigits (by decide) (by decide) member⟩
  leading zero := by
    cases number with
    | zero => rfl
    | succ number =>
        obtain ⟨first, rest, written, nonzero⟩ := Text.Decimal.toDigits_cons (Nat.succ_pos number)
        rw [written] at zero
        exact absurd (Option.some.inj zero) nonzero

theorem toDigits_ne_zero (positive : 0 < number) : Nat.toDigits 10 number ≠ ['0'] := by
  obtain ⟨first, rest, written, nonzero⟩ := Text.Decimal.toDigits_cons positive
  rw [written]
  intro zero
  exact nonzero (List.cons.inj zero).1

end

theorem Numeral.spells_integer (value : Int) :
    (Numeral.integer value).Spells (toString value).toList := by
  cases value with
  | ofNat number =>
      have spelled := Spells.natural (whole_toDigits number)
      rw [Nat.ofDigitChars_ten_toDigits, ← Nat.toList_repr] at spelled
      exact spelled
  | negSucc number =>
      have written : (toString (Int.negSucc number)).toList =
          '-' :: Nat.toDigits 10 (number + 1) := by
        have signed : (toString (Int.negSucc number)).toList =
            ("-" ++ (number + 1).repr).toList := rfl
        rw [signed, String.toList_append, Nat.toList_repr]
        rfl
      have spelled := Spells.negative (whole_toDigits (number + 1))
        (toDigits_ne_zero (Nat.succ_pos number))
      rw [Nat.ofDigitChars_ten_toDigits] at spelled
      rw [written]
      exact spelled

/-! ## Strings -/

theorem spells_control {c : Char} (control : c.toNat < 0x20) :
    (Piece.char c).Spells ('\\' :: 'u' :: Bytes.Hex.encode [0, UInt8.ofNat c.toNat]) := by
  have byte : (UInt8.ofNat c.toNat).toNat = c.toNat :=
    UInt8.toNat_ofNat_of_lt (Nat.lt_of_lt_of_le control (by decide))
  have high := Bytes.Hex.digitValue?_digit (show c.toNat / 16 < 16 by omega)
  have low := Bytes.Hex.digitValue?_digit (show c.toNat % 16 < 16 by omega)
  have zero : Bytes.Hex.digitValue? '0' = some 0 := rfl
  have digits : Bytes.Hex.encode [0, UInt8.ofNat c.toNat] =
      ['0', '0', Bytes.Hex.digit (c.toNat / 16), Bytes.Hex.digit (c.toNat % 16)] := by
    simp only [Bytes.Hex.encode, Bytes.Hex.ofByte, List.flatMap_cons, List.flatMap_nil, byte]
    rfl
  have total : 4096 * 0 + 256 * 0 + 16 * (c.toNat / 16) + c.toNat % 16 = c.toNat := by omega
  have value : unit? (Bytes.Hex.encode [0, UInt8.ofNat c.toNat]) = some c.toNat := by
    simp only [digits, unit?, zero, high, low, Option.bind_eq_bind, Option.bind_some, total]
  have spelled := Piece.Spells.unit value (.inl (by omega))
  rwa [Char.ofNat_toNat] at spelled

theorem spells_escape (c : Char) : (Piece.char c).Spells (escape c) := by
  unfold escape
  split
  · rename_i quote
    subst quote
    exact .short (by decide)
  split
  · rename_i backslash
    subst backslash
    exact .short (by decide)
  split
  · rename_i control
    subst control
    exact .short (by decide)
  split
  · rename_i control
    subst control
    exact .short (by decide)
  split
  · rename_i control
    subst control
    exact .short (by decide)
  split
  · rename_i control
    subst control
    exact .short (by decide)
  split
  · rename_i control
    subst control
    exact .short (by decide)
  split
  · rename_i control
    exact spells_control control
  · rename_i quote backslash _ _ _ _ _ plain
    exact .plain quote backslash (Nat.not_lt.1 plain)

theorem spells_escapes (value : List Char) :
    SpellPieces (value.map .char) (value.flatMap escape) := by
  induction value with
  | nil => exact .nil
  | cons c rest ih => exact .cons (spells_escape c) ih

theorem ofPieces_chars (value : List Char) :
    Literal.ofPieces (value.map .char) = .text (String.ofList value) := by
  have joined : joined? (value.map .char) = some value := by
    induction value with
    | nil => rfl
    | cons c rest ih => rw [List.map_cons, joined?, ih, Option.map_some]
  rw [Literal.ofPieces, joined]
  rfl

theorem Literal.render_text (value : String) (rest : List Char) :
    (Literal.text value).render rest =
      '"' :: (value.toList.flatMap escape ++ ['"']) ++ rest := by
  change '"' :: (value.toList.flatMap escape ++ '"' :: rest) = _
  rw [List.cons_append, List.append_assoc, List.singleton_append]

theorem spells_text (value : String) :
    Token.Spells (.string (.text value)) ('"' :: (value.toList.flatMap escape ++ ['"'])) := by
  have spelled := Token.Spells.string (spells_escapes value.toList)
  rwa [ofPieces_chars, String.ofList_toList] at spelled

/-! ## Documents -/

theorem blank_nil : Blank [] := by
  decide

/-- The style puts nothing but blanks between the tokens. -/
structure Style.Blank (style : Style) : Prop where
  lineBreak : ∀ depth, Json.Blank (style.lineBreak depth)
  colon : ∃ blanks, style.colon = ':' :: blanks ∧ Json.Blank blanks

theorem Style.blank_indented : Style.indented.Blank where
  lineBreak depth c member := by
    rcases List.mem_cons.1 member with rfl | blank
    · decide
    · rw [(List.mem_replicate.1 blank).2]
      decide
  colon := ⟨[' '], rfl, by decide⟩

section

variable {style : Style} {gap rest : List Char} {found : List Token}

theorem SpellTokens.mark {token : Token} {c : Char} (known : (token, c) ∈ marks) (blank : Blank gap)
    (later : SpellTokens found rest) : SpellTokens (token :: found) (gap ++ c :: rest) :=
  .cons blank (.mark known) later

/-- A key and what separates it from its value. -/
theorem SpellTokens.key (blank : style.Blank) (key : String) (between : Json.Blank gap)
    (value : ∀ gap, Json.Blank gap → SpellTokens found (gap ++ rest)) :
    SpellTokens (.string (.text key) :: .colon :: found)
      (gap ++ (Literal.text key).render (style.colon ++ rest)) := by
  obtain ⟨blanks, colon, around⟩ := blank.colon
  rw [Literal.render_text, colon, List.cons_append]
  exact .cons between (spells_text key) (.mark (by decide) blank_nil (value blanks around))

mutual

theorem spells_render (blank : style.Blank) (depth : Nat) (json : Json) (plain : Plain json)
    (gap : List Char) (between : Json.Blank gap) (found : List Token) (rest : List Char)
    (later : SpellTokens found rest) :
    SpellTokens (tokens json ++ found) (gap ++ render style depth json rest) := by
  cases json with
  | null => exact .cons between .null later
  | bool value =>
      cases value with
      | true => exact .cons between .true later
      | false => exact .cons between .false later
  | number value =>
      cases value with
      | integer value => exact .cons between (.number (Numeral.spells_integer value)) later
      | real text => exact absurd plain (by simp [Plain])
  | string value =>
      cases value with
      | text value =>
          rw [render, Literal.render_text]
          exact .cons between (spells_text value) later
      | unpaired => exact absurd plain (by simp [Plain])
  | array items =>
      cases items with
      | nil =>
          rw [render]
          exact .mark (by decide) between (.mark (by decide) blank_nil later)
      | cons item items =>
          simp only [Plain, PlainItems] at plain
          have closed : SpellTokens (.closeArray :: found) (style.lineBreak depth ++ ']' :: rest) :=
            .mark (by decide) (blank.lineBreak depth) later
          have others := spells_renderItems blank (depth + 1) items plain.2 _ _ closed
          have first := spells_render blank (depth + 1) item plain.1 (style.lineBreak (depth + 1))
            (blank.lineBreak _) _ _ others
          simp only [tokens, List.cons_append, List.append_assoc, List.nil_append]
          rw [render]
          exact .mark (by decide) between first
  | object members =>
      cases members with
      | nil =>
          rw [render]
          exact .mark (by decide) between (.mark (by decide) blank_nil later)
      | cons member members =>
          obtain ⟨key, value⟩ := member
          cases key with
          | unpaired => exact absurd plain (by simp [Plain, PlainMembers])
          | text key =>
              simp only [Plain, PlainMembers] at plain
              have closed :
                  SpellTokens (.closeObject :: found) (style.lineBreak depth ++ '\x7d' :: rest) :=
                .mark (by decide) (blank.lineBreak depth) later
              have others := spells_renderMembers blank (depth + 1) members plain.2 _ _ closed
              have named := SpellTokens.key blank key (blank.lineBreak (depth + 1)) fun gap around =>
                spells_render blank (depth + 1) value plain.1 gap around _ _ others
              simp only [tokens, List.cons_append, List.append_assoc, List.nil_append]
              rw [render]
              exact .mark (by decide) between named

theorem spells_renderItems (blank : style.Blank) (depth : Nat) (items : List Json)
    (plain : PlainItems items) (found : List Token) (rest : List Char)
    (later : SpellTokens found rest) :
    SpellTokens (itemTokens items ++ found) (renderItems style depth items rest) := by
  cases items with
  | nil => exact later
  | cons item items =>
      simp only [PlainItems] at plain
      have others := spells_renderItems blank depth items plain.2 _ _ later
      have first := spells_render blank depth item plain.1 (style.lineBreak depth)
        (blank.lineBreak _) _ _ others
      rw [itemTokens, List.cons_append, List.append_assoc, renderItems]
      exact .mark (by decide) blank_nil first

theorem spells_renderMembers (blank : style.Blank) (depth : Nat) (members : List (Literal × Json))
    (plain : PlainMembers members) (found : List Token) (rest : List Char)
    (later : SpellTokens found rest) :
    SpellTokens (memberTokens members ++ found) (renderMembers style depth members rest) := by
  cases members with
  | nil => exact later
  | cons member members =>
      obtain ⟨key, value⟩ := member
      cases key with
      | unpaired => exact absurd plain (by simp [PlainMembers])
      | text key =>
          simp only [PlainMembers] at plain
          have others := spells_renderMembers blank depth members plain.2 _ _ later
          have named := SpellTokens.key blank key (blank.lineBreak depth)
            fun gap around => spells_render blank depth value plain.1 gap around _ _ others
          simp only [memberTokens, List.cons_append, List.append_assoc]
          rw [renderMembers]
          exact .mark (by decide) blank_nil named

end

/-- What is written of a plain document is a spelling of it. -/
theorem spells_of_plain {json : Json} (blank : style.Blank) (plain : Plain json) :
    SpellTokens json.tokens (render style 0 json []) := by
  have whole := spells_render blank 0 json plain [] blank_nil [] [] (.nil blank_nil)
  rwa [List.append_nil] at whole

theorem SpellTokens.append_blanks {text blanks : List Char} (spelled : SpellTokens found text)
    (blank : Json.Blank blanks) : SpellTokens found (text ++ blanks) := by
  induction spelled with
  | nil gap => exact .nil fun c member => (List.mem_append.1 member).elim (gap c) (blank c)
  | cons gap first later ih =>
      rw [List.append_assoc, List.append_assoc]
      exact .cons gap first ih

end

theorem spells_pretty {json : Json} (plain : Plain json) : json.Spells json.pretty := by
  rw [Spells, pretty, String.toList_ofList]
  exact spells_of_plain Style.blank_indented plain

theorem read?_pretty {json : Json} (plain : Plain json) : read? json.pretty = some json :=
  read?_of_spells (spells_pretty plain)

/-- A document that is printed with a line end is read back from what was printed. -/
theorem read?_line {json : Json} (plain : Plain json) :
    read? (json.pretty ++ "\n") = some json := by
  have line : Blank ['\n'] := by decide
  have spelled := (spells_pretty plain).append_blanks line
  apply read?_of_spells
  rw [Spells, String.toList_append]
  exact spelled

end TransferLedger.Json
