import TransferLedger.Proofs.Json.Numeral

/-! The scanner on spelled tokens.

A word or a number ends where the next token begins, so between two tokens the scanner is
settled: it knows the tokens so far, though it may still keep the letters of the last one.
-/

namespace TransferLedger.Json

/-! ## Drafts -/

/-- The token ends only where something else begins. -/
def Token.isWide : Token → Bool
  | .null => true
  | .bool _ => true
  | .number _ => true
  | _ => false

/-- Of two tokens that stand next to each other at most one is wide.  `wide` tells it of the token
in front of these. -/
def Apart (wide : Bool) : List Token → Prop
  | [] => True
  | token :: rest => (wide = true → token.isWide = false) ∧ Apart token.isWide rest

namespace Draft

/-- The draft behind one more piece. -/
def put (draft : Draft) : Piece → Draft
  | .char c => draft.add c
  | .high unit =>
      { draft with high? := some unit, paired := draft.paired && draft.high?.isNone }
  | .low unit =>
      match draft.high? with
      | some high =>
          { draft with
            chars := Char.ofNat (0x10000 + (high - 0xD800) * 0x400 + (unit - 0xDC00)) :: draft.chars
            high? := none }
      | none => { draft with paired := false }

variable {draft : Draft} {unit : Nat}

theorem addUnit_char (whole : unit < 0xD800 ∨ 0xE000 ≤ unit) :
    draft.addUnit unit = draft.put (.char (Char.ofNat unit)) := by
  rw [addUnit, if_neg (by omega), if_neg (by omega)]
  rfl

theorem addUnit_high (range : 0xD800 ≤ unit ∧ unit < 0xDC00) :
    draft.addUnit unit = draft.put (.high unit) := by
  rw [addUnit, if_pos range]
  rfl

theorem addUnit_low (range : 0xDC00 ≤ unit ∧ unit < 0xE000) :
    draft.addUnit unit = draft.put (.low unit) := by
  rw [addUnit, if_neg (by omega), if_pos range]
  rfl

/-- What the draft becomes when these pieces follow. -/
def followed (draft : Draft) (pieces : List Piece) : Literal :=
  if draft.paired then
    .ofChars? ((joined? ((draft.high?.map Piece.high).toList ++ pieces)).map
      (draft.chars.reverse ++ ·))
  else .unpaired

theorem followed_empty (pieces : List Piece) : followed {} pieces = .ofPieces pieces := by
  simp [followed, Literal.ofPieces]

theorem followed_nil (draft : Draft) : draft.followed [] = draft.literal := by
  obtain ⟨chars, high?, paired⟩ := draft
  cases paired with
  | false => rfl
  | true =>
      cases high? with
      | none => simp [followed, literal, joined?, Literal.ofChars?]
      | some high => rfl

theorem followed_cons (draft : Draft) (piece : Piece) (pieces : List Piece) :
    draft.followed (piece :: pieces) = (draft.put piece).followed pieces := by
  obtain ⟨chars, high?, paired⟩ := draft
  have behind (c : Char) :
      (chars.reverse ++ ·) ∘ (c :: ·) = ((c :: chars).reverse ++ · : List Char → List Char) := by
    funext rest
    simp
  cases paired with
  | false => cases piece <;> cases high? <;> rfl
  | true =>
      cases piece with
      | char c =>
          cases high? with
          | none => simp [followed, put, add, joined?, behind]
          | some high => rfl
      | high unit => cases high? <;> rfl
      | low unit =>
          cases high? with
          | none => rfl
          | some high => simp [followed, put, joined?, behind]

/-- The pieces make the literal that they denote. -/
theorem literal_foldl (pieces : List Piece) (draft : Draft) :
    (pieces.foldl put draft).literal = draft.followed pieces := by
  induction pieces generalizing draft with
  | nil => exact (followed_nil draft).symm
  | cons piece rest ih => rw [List.foldl_cons, ih, followed_cons]

end Draft

/-! ## Settled scanners -/

namespace Scanner

variable {scanner next : Scanner} {tokens : List Token} {c : Char} {text rest blanks : List Char}

def scan (scanner : Scanner) (text : List Char) : Option Scanner :=
  text.foldlM step scanner

/-- The tokens, last one first, if the current one may end here. -/
def settled? (scanner : Scanner) : Option (List Token) :=
  match scanner.mode with
  | .gap => some scanner.tokens
  | .word letters => (word? letters.reverse).map fun token => token :: scanner.tokens
  | .numeral chars =>
      (Numeral.read? chars.reverse).map fun number => .number number :: scanner.tokens
  | _ => none

theorem finish?_eq (scanner : Scanner) : scanner.finish? = scanner.settled?.map List.reverse := by
  obtain ⟨mode, tokens⟩ := scanner
  cases mode with
  | word letters => simp only [finish?, settled?, Option.map_map]; rfl
  | numeral chars => simp only [finish?, settled?, Option.map_map]; rfl
  | _ => rfl

theorem scan_cons (taken : scanner.step c = some next) :
    scanner.scan (c :: rest) = next.scan rest := by
  rw [scan, List.foldlM_cons, taken]
  rfl

/-- A character that is part of no word and of no number. -/
def Separates (c : Char) : Prop :=
  c.isLower = false ∧ isNumeralChar c = false

instance (c : Char) : Decidable (Separates c) :=
  inferInstanceAs (Decidable (_ ∧ _))

theorem step_of_settled (settled : scanner.settled? = some tokens) (separates : Separates c) :
    scanner.step c = start tokens c := by
  obtain ⟨mode, before⟩ := scanner
  cases mode with
  | gap =>
      cases settled
      rfl
  | word letters =>
      obtain ⟨token, known, rfl⟩ := Option.map_eq_some_iff.1 settled
      simp only [step, separates.1, Bool.false_eq_true, if_false, known]
      rfl
  | numeral chars =>
      obtain ⟨number, known, rfl⟩ := Option.map_eq_some_iff.1 settled
      simp only [step, separates.2, Bool.false_eq_true, if_false, known]
      rfl
  | text draft => cases settled
  | escape draft => cases settled
  | hex draft unit count => cases settled

theorem start_blank (blank : c ∈ [' ', '\n', '\t', '\r']) :
    start tokens c = some { tokens } ∧ Separates c := by
  simp only [List.mem_cons, List.not_mem_nil, or_false] at blank
  rcases blank with rfl | rfl | rfl | rfl
  · exact ⟨rfl, by decide⟩
  · exact ⟨rfl, by decide⟩
  · exact ⟨rfl, by decide⟩
  · exact ⟨rfl, by decide⟩

theorem scan_blanks (blank : Blank blanks) :
    scan { tokens } (blanks ++ rest) = scan { tokens } rest := by
  induction blanks with
  | nil => rfl
  | cons c later ih =>
      have stays : step { tokens } c = some { tokens } :=
        (start_blank (blank c List.mem_cons_self)).1
      rw [List.cons_append, scan_cons stays]
      exact ih fun other member => blank other (List.mem_cons_of_mem _ member)

theorem step_of_blank (settled : scanner.settled? = some tokens)
    (blank : c ∈ [' ', '\n', '\t', '\r']) : scanner.step c = some { tokens } := by
  obtain ⟨passed, separates⟩ := start_blank blank
  exact (step_of_settled settled separates).trans passed


/-! ## Strings -/

variable {draft : Draft} {piece : Piece} {pieces : List Piece} {digits : List Char} {unit : Nat}

theorem unit?_eq_some (value : unit? digits = some unit) :
    ∃ a b c d first second third fourth, digits = [a, b, c, d] ∧
      Bytes.Hex.digitValue? a = some first ∧ Bytes.Hex.digitValue? b = some second ∧
      Bytes.Hex.digitValue? c = some third ∧ Bytes.Hex.digitValue? d = some fourth ∧
      4096 * first + 256 * second + 16 * third + fourth = unit := by
  unfold unit? at value
  split at value
  · rename_i a b c d
    simp only [Option.bind_eq_bind, Option.bind_eq_some_iff, Option.some.injEq] at value
    obtain ⟨first, ha, second, hb, third, hc, fourth, hd, whole⟩ := value
    exact ⟨a, b, c, d, first, second, third, fourth, rfl, ha, hb, hc, hd, whole⟩
  · cases value

theorem step_hex {count value : Nat} (digit : Bytes.Hex.digitValue? c = some value)
    (more : count ≠ 3) :
    step { mode := .hex draft unit count, tokens } c =
      some { mode := .hex draft (16 * unit + value) (count + 1), tokens } := by
  simp only [step, digit, Option.bind_eq_bind, Option.bind_some, if_neg more]

theorem scan_unit (value : unit? digits = some unit) :
    scan { mode := .text draft, tokens } ('\\' :: 'u' :: (digits ++ rest)) =
      scan { mode := .text (draft.addUnit unit), tokens } rest := by
  obtain ⟨a, b, c, d, first, second, third, fourth, rfl, ha, hb, hc, hd, whole⟩ :=
    unit?_eq_some value
  have opened : step { mode := .text draft, tokens } '\\' =
      some { mode := .escape draft, tokens } := rfl
  have begun : step { mode := .escape draft, tokens } 'u' =
      some { mode := .hex draft 0 0, tokens } := rfl
  have total : 16 * (16 * (16 * (16 * 0 + first) + second) + third) + fourth = unit := by omega
  have closed : step ⟨.hex draft (16 * (16 * (16 * 0 + first) + second) + third) 3, tokens⟩ d =
      some { mode := .text (draft.addUnit unit), tokens } := by
    simp only [step, hd, Option.bind_eq_bind, Option.bind_some, total, if_true]
  rw [scan_cons opened, scan_cons begun]
  simp only [List.cons_append, List.nil_append]
  rw [scan_cons (step_hex ha (by decide)), scan_cons (step_hex hb (by decide)),
    scan_cons (step_hex hc (by decide))]
  exact scan_cons closed

theorem scan_piece (spelled : piece.Spells text) :
    scan { mode := .text draft, tokens } (text ++ rest) =
      scan { mode := .text (draft.put piece), tokens } rest := by
  cases spelled with
  | plain noQuote noBackslash noControl =>
      refine scan_cons ?_
      simp only [step, if_neg noQuote, if_neg noBackslash, if_neg (Nat.not_lt.2 noControl)]
      rfl
  | short known =>
      have meant : ∀ pair ∈ shortEscapes, pair.1 ≠ 'u' ∧ escaped? pair.1 = some pair.2 := by decide
      obtain ⟨letter, escaped⟩ := meant _ known
      have opened : step { mode := .text draft, tokens } '\\' =
          some { mode := .escape draft, tokens } := rfl
      refine (scan_cons opened).trans (scan_cons ?_)
      simp only [step, if_neg letter, escaped, Option.map_some]
      rfl
  | unit value whole => exact (scan_unit value).trans (by rw [Draft.addUnit_char whole])
  | high value range => exact (scan_unit value).trans (by rw [Draft.addUnit_high range])
  | low value range => exact (scan_unit value).trans (by rw [Draft.addUnit_low range])

theorem scan_pieces (spelled : SpellPieces pieces text) :
    scan { mode := .text draft, tokens } (text ++ rest) =
      scan { mode := .text (pieces.foldl Draft.put draft), tokens } rest := by
  induction spelled generalizing draft with
  | nil => rfl
  | cons first later ih => rw [List.append_assoc, scan_piece first, ih, List.foldl_cons]

theorem scan_string (spelled : SpellPieces pieces text) :
    scan { tokens } ('"' :: (text ++ ['"']) ++ rest) =
      scan { tokens := .string (.ofPieces pieces) :: tokens } rest := by
  have opened : step { tokens } '"' = some { mode := .text {}, tokens } := rfl
  have whole : (pieces.foldl Draft.put {}).literal = .ofPieces pieces := by
    rw [Draft.literal_foldl, Draft.followed_empty]
  have closed : step { mode := .text (pieces.foldl Draft.put {}), tokens } '"' =
      some { tokens := .string (.ofPieces pieces) :: tokens } := by
    rw [← whole]
    rfl
  rw [List.cons_append, List.append_assoc, scan_cons opened, scan_pieces spelled,
    List.singleton_append]
  exact scan_cons closed

/-! ## Words and numbers -/

theorem start_of_digit (digit : c.isDigit = true) :
    start tokens c = some { mode := .numeral [c], tokens } := by
  have other (d : Char) (away : d.isDigit = false) : c ≠ d := by
    intro same
    rw [same, away] at digit
    cases digit
  simp only [start, other ' ' rfl, other '\t' rfl, other '\n' rfl, other '\r' rfl, other '[' rfl,
    other ']' rfl, other '\x7b' rfl, other '\x7d' rfl, other ',' rfl, other ':' rfl, other '"' rfl,
    digit, decide_false, Bool.or_self, Bool.false_eq_true, if_false, Bool.or_true, if_true]


theorem scan_numeral {chars : List Char} (all : ∀ c ∈ text, isNumeralChar c = true) :
    scan { mode := .numeral chars, tokens } (text ++ rest) =
      scan { mode := .numeral (text.reverse ++ chars), tokens } rest := by
  induction text generalizing chars with
  | nil => rfl
  | cons c later ih =>
      have taken : step { mode := .numeral chars, tokens } c =
          some { mode := .numeral (c :: chars), tokens } := by
        simp only [step, all c List.mem_cons_self, if_true]
      rw [List.cons_append, scan_cons taken,
        ih fun other member => all other (List.mem_cons_of_mem _ member), List.reverse_cons,
        List.append_assoc, List.singleton_append]

theorem scan_number {numeral : Numeral} (spelled : numeral.Spells text) :
    ∃ scanner, scan { tokens } (text ++ rest) = scan scanner rest ∧
      scanner.settled? = some (.number numeral :: tokens) := by
  obtain ⟨first, later, rfl, begins⟩ := spelled.begins
  have opened : step { tokens } first = some { mode := .numeral [first], tokens } := by
    rcases begins with rfl | digit
    · rfl
    · exact start_of_digit digit
  refine ⟨{ mode := .numeral (later.reverse ++ [first]), tokens }, ?_, ?_⟩
  · rw [List.cons_append, scan_cons opened,
      scan_numeral fun c member => spelled.isNumeralChar (List.mem_cons_of_mem _ member)]
  · have read := Numeral.read?_of_spells spelled
    simp only [settled?, List.reverse_append, List.reverse_reverse, List.reverse_cons,
      List.reverse_nil, List.nil_append, List.singleton_append, read, Option.map_some]

/-! ## Tokens -/

variable {token : Token} {found : List Token} {gap : List Char} {wide : Bool}

theorem start_mark (known : (token, c) ∈ marks) :
    start tokens c = some { tokens := token :: tokens } := by
  simp only [marks, List.mem_cons, List.not_mem_nil, or_false, Prod.mk.injEq] at known
  rcases known with ⟨rfl, rfl⟩ | ⟨rfl, rfl⟩ | ⟨rfl, rfl⟩ | ⟨rfl, rfl⟩ | ⟨rfl, rfl⟩ | ⟨rfl, rfl⟩
  · rfl
  · rfl
  · rfl
  · rfl
  · rfl
  · rfl

theorem separates_mark (known : (token, c) ∈ marks) : Separates c := by
  have all : ∀ pair ∈ marks, Separates pair.2 := by decide
  exact all _ known

/-- A spelled token is found, and a narrow one leaves nothing behind. -/
theorem scan_token (spelled : token.Spells text) (tokens : List Token) (rest : List Char) :
    ∃ scanner, scan { tokens } (text ++ rest) = scan scanner rest ∧
      scanner.settled? = some (token :: tokens) ∧
      (token.isWide = false → scanner.mode = .gap) := by
  cases spelled with
  | mark known => exact ⟨_, scan_cons (start_mark known), rfl, fun _ => rfl⟩
  | null => exact ⟨{ mode := .word ['l', 'l', 'u', 'n'], tokens }, rfl, rfl, nofun⟩
  | true => exact ⟨{ mode := .word ['e', 'u', 'r', 't'], tokens }, rfl, rfl, nofun⟩
  | false => exact ⟨{ mode := .word ['e', 's', 'l', 'a', 'f'], tokens }, rfl, rfl, nofun⟩
  | number spelled =>
      obtain ⟨scanner, scanned, settled⟩ := scan_number spelled
      exact ⟨scanner, scanned, settled, nofun⟩
  | string spelled => exact ⟨_, scan_string spelled, rfl, fun _ => rfl⟩

theorem begins_of_narrow (spelled : token.Spells text) (narrow : token.isWide = false) :
    ∃ first later, text = first :: later ∧ Separates first := by
  cases spelled with
  | mark known => exact ⟨_, [], rfl, separates_mark known⟩
  | string _ => exact ⟨'"', _, rfl, by decide⟩
  | null => cases narrow
  | true => cases narrow
  | false => cases narrow
  | number _ => cases narrow

/-- Behind a settled scanner the next token is scanned as in a gap. -/
theorem scan_next (settled : scanner.settled? = some tokens) (blank : Blank gap)
    (spelled : token.Spells text) (apart : scanner.mode = .gap ∨ token.isWide = false) :
    scanner.scan (gap ++ (text ++ rest)) = scan { tokens } (text ++ rest) := by
  cases gap with
  | cons first later =>
      have passed := step_of_blank settled (blank first List.mem_cons_self)
      rw [List.cons_append, scan_cons passed,
        scan_blanks fun other member => blank other (List.mem_cons_of_mem _ member)]
  | nil =>
      rcases apart with inGap | narrow
      · obtain ⟨mode, before⟩ := scanner
        cases inGap
        cases settled
        rfl
      · obtain ⟨first, later, rfl, separates⟩ := begins_of_narrow spelled narrow
        have same : scanner.step first = step { tokens } first := step_of_settled settled separates
        rw [List.nil_append, List.cons_append, scan, List.foldlM_cons, same]
        rfl

/-- Blanks at the end are nothing to a settled scanner. -/
theorem scan_trailing (settled : scanner.settled? = some tokens) (blank : Blank gap) :
    ∃ last, scanner.scan gap = some last ∧ last.settled? = some tokens := by
  cases gap with
  | nil => exact ⟨scanner, rfl, settled⟩
  | cons first later =>
      have passed := step_of_blank settled (blank first List.mem_cons_self)
      have rest : Blank later := fun other member => blank other (List.mem_cons_of_mem _ member)
      have through : scan { tokens } (later ++ []) = some { tokens } := scan_blanks rest
      rw [List.append_nil] at through
      exact ⟨_, (scan_cons passed).trans through, rfl⟩

/-- Spelled tokens are found one after the other. -/
theorem scan_tokens (spelled : SpellTokens found text) (settled : scanner.settled? = some tokens)
    (apart : Apart wide found) (narrow : wide = false → scanner.mode = .gap) :
    ∃ last, scanner.scan text = some last ∧ last.settled? = some (found.reverse ++ tokens) := by
  induction spelled generalizing scanner tokens wide with
  | nil blank => exact scan_trailing settled blank
  | @cons token found gap text rest blank first later ih =>
      have next : scanner.mode = .gap ∨ token.isWide = false := by
        cases wide with
        | false => exact .inl (narrow rfl)
        | true => exact .inr (apart.1 rfl)
      obtain ⟨after, scanned, passed, clear⟩ := scan_token first tokens rest
      obtain ⟨last, ended, done⟩ := ih passed apart.2 clear
      refine ⟨last, ?_, ?_⟩
      · rw [scan_next settled blank first next, scanned, ended]
      · rw [done, List.reverse_cons, List.append_assoc, List.singleton_append]

end Scanner

theorem tokens?_of_spells {found : List Token} {text : List Char} (spelled : SpellTokens found text)
    (apart : Apart false found) : tokens? text = some found := by
  have begun : Scanner.settled? {} = some [] := rfl
  obtain ⟨last, scanned, settled⟩ := Scanner.scan_tokens spelled begun apart fun _ => rfl
  have whole : text.foldlM Scanner.step {} = some last := scanned
  rw [tokens?, whole, Option.bind_eq_bind, Option.bind_some, Scanner.finish?_eq, settled,
    Option.map_some, List.append_nil, List.reverse_reverse]

end TransferLedger.Json
