import TransferLedger.Json.Reader
import TransferLedger.Proofs.Json.Scanner

/-! Spelled documents read.

The scanner finds the tokens of a document in its text, however it is written, and the assembler
makes the document of them.
-/

namespace TransferLedger.Json

/-! ## Tokens apart -/

/-- What may stand behind a wide token may stand behind any. -/
theorem Apart.behind {rest : List Token} (apart : Apart true rest) (wide : Bool) :
    Apart wide rest := by
  cases rest with
  | nil => exact trivial
  | cons token rest => exact ⟨fun _ => apart.1 rfl, apart.2⟩

mutual

theorem apart_tokens (json : Json) (rest : List Token) (later : Apart true rest) :
    Apart false (tokens json ++ rest) := by
  cases json with
  | null => exact ⟨nofun, later⟩
  | bool value => exact ⟨nofun, later⟩
  | number value => exact ⟨nofun, later⟩
  | string value => exact ⟨nofun, later.behind false⟩
  | array items =>
      cases items with
      | nil => exact ⟨nofun, nofun, later.behind false⟩
      | cons item items =>
          have closed : Apart true (.closeArray :: rest) := ⟨fun _ => rfl, later.behind false⟩
          have whole := apart_tokens item _ (apart_itemTokens items _ closed)
          simp only [tokens, List.cons_append, List.append_assoc, List.nil_append]
          exact ⟨nofun, whole⟩
  | object members =>
      cases members with
      | nil => exact ⟨nofun, nofun, later.behind false⟩
      | cons member members =>
          obtain ⟨key, value⟩ := member
          have closed : Apart true (.closeObject :: rest) := ⟨fun _ => rfl, later.behind false⟩
          have whole := apart_tokens value _ (apart_memberTokens members _ closed)
          simp only [tokens, List.cons_append, List.append_assoc, List.nil_append]
          exact ⟨nofun, nofun, nofun, whole⟩

theorem apart_itemTokens (items : List Json) (rest : List Token) (later : Apart true rest) :
    Apart true (itemTokens items ++ rest) := by
  cases items with
  | nil => exact later
  | cons item items =>
      have whole := apart_tokens item _ (apart_itemTokens items _ later)
      rw [itemTokens, List.cons_append, List.append_assoc]
      exact ⟨fun _ => rfl, whole⟩

theorem apart_memberTokens (members : List (Literal × Json)) (rest : List Token)
    (later : Apart true rest) : Apart true (memberTokens members ++ rest) := by
  cases members with
  | nil => exact later
  | cons member members =>
      obtain ⟨key, value⟩ := member
      have whole := apart_tokens value _ (apart_memberTokens members _ later)
      simp only [memberTokens, List.cons_append, List.append_assoc]
      exact ⟨fun _ => rfl, nofun, nofun, whole⟩

end

/-! ## Assembling -/

def assemble (stage : Stage) (text : List Token) : Option Stage :=
  text.foldlM Stage.step stage

section

variable {stage next : Stage} {token : Token} {rest : List Token}

theorem assemble_cons (taken : stage.step token = some next) :
    assemble stage (token :: rest) = assemble next rest := by
  rw [assemble, List.foldlM_cons, taken]
  rfl

theorem tokens_eq_cons (json : Json) :
    ∃ first more, tokens json = first :: more ∧ first ≠ .closeArray := by
  cases json with
  | array items => cases items <;> exact ⟨_, _, rfl, by decide⟩
  | object members => cases members <;> exact ⟨_, _, rfl, by decide⟩
  | null => exact ⟨_, _, rfl, by decide⟩
  | bool value => exact ⟨_, _, rfl, nofun⟩
  | number value => exact ⟨_, _, rfl, nofun⟩
  | string value => exact ⟨_, _, rfl, nofun⟩

/-- A document behind an opening bracket is the first item. -/
theorem assemble_wantItem (stack : List Frame) (json : Json) (rest : List Token) :
    assemble (.wantItem stack) (tokens json ++ rest) =
      assemble (.wantValue (.array [] :: stack)) (tokens json ++ rest) := by
  obtain ⟨first, more, spelled, opens⟩ := tokens_eq_cons json
  have same : Stage.step (.wantItem stack) first =
      Stage.step (.wantValue (.array [] :: stack)) first := by
    cases first <;> first | rfl | exact absurd rfl opens
  rw [spelled, List.cons_append, assemble, assemble, List.foldlM_cons, List.foldlM_cons, same]

mutual

theorem assemble_tokens (stack : List Frame) (json : Json) (rest : List Token) :
    assemble (.wantValue stack) (tokens json ++ rest) = assemble (Stage.put json stack) rest := by
  cases json with
  | null => exact assemble_cons rfl
  | bool value => exact assemble_cons rfl
  | number value => exact assemble_cons rfl
  | string value => exact assemble_cons rfl
  | array items =>
      have opened : Stage.step (.wantValue stack) .openArray = some (.wantItem stack) := rfl
      cases items with
      | nil =>
          rw [tokens, List.cons_append, assemble_cons opened]
          exact assemble_cons rfl
      | cons item items =>
          have closed : Stage.step (.afterItem stack (items.reverse ++ [item])) .closeArray =
              some (Stage.put (.array (items.reverse ++ [item]).reverse) stack) := rfl
          rw [tokens, List.cons_append, assemble_cons opened, List.append_assoc, List.append_assoc,
            assemble_wantItem, assemble_tokens (.array [] :: stack) item, Stage.put,
            assemble_itemTokens stack [item] items, List.singleton_append, assemble_cons closed,
            List.reverse_append, List.reverse_reverse]
          rfl
  | object members =>
      have opened : Stage.step (.wantValue stack) .openObject = some (.wantMember stack) := rfl
      cases members with
      | nil =>
          rw [tokens, List.cons_append, assemble_cons opened]
          exact assemble_cons rfl
      | cons member members =>
          obtain ⟨key, value⟩ := member
          have named : Stage.step (.wantMember stack) (.string key) =
              some (.wantColon stack [] key) := rfl
          have coloned : Stage.step (.wantColon stack [] key) .colon =
              some (.wantValue (.object [] key :: stack)) := rfl
          have closed :
              Stage.step (.afterMember stack (members.reverse ++ [(key, value)])) .closeObject =
                some (Stage.put (.object (members.reverse ++ [(key, value)]).reverse) stack) := rfl
          rw [tokens, List.cons_append, assemble_cons opened, List.cons_append,
            assemble_cons named, List.cons_append, assemble_cons coloned, List.append_assoc,
            List.append_assoc, assemble_tokens (.object [] key :: stack) value, Stage.put,
            assemble_memberTokens stack [(key, value)] members, List.singleton_append,
            assemble_cons closed, List.reverse_append, List.reverse_reverse]
          rfl

theorem assemble_itemTokens (stack : List Frame) (before items : List Json) (rest : List Token) :
    assemble (.afterItem stack before) (itemTokens items ++ rest) =
      assemble (.afterItem stack (items.reverse ++ before)) rest := by
  cases items with
  | nil => rfl
  | cons item items =>
      have separated : Stage.step (.afterItem stack before) .comma =
          some (.wantValue (.array before :: stack)) := rfl
      rw [itemTokens, List.cons_append, assemble_cons separated, List.append_assoc,
        assemble_tokens (.array before :: stack) item, Stage.put,
        assemble_itemTokens stack (item :: before) items, List.reverse_cons, List.append_assoc,
        List.singleton_append]

theorem assemble_memberTokens (stack : List Frame) (before members : List (Literal × Json))
    (rest : List Token) :
    assemble (.afterMember stack before) (memberTokens members ++ rest) =
      assemble (.afterMember stack (members.reverse ++ before)) rest := by
  cases members with
  | nil => rfl
  | cons member members =>
      obtain ⟨key, value⟩ := member
      have separated : Stage.step (.afterMember stack before) .comma =
          some (.wantKey stack before) := rfl
      have named : Stage.step (.wantKey stack before) (.string key) =
          some (.wantColon stack before key) := rfl
      have coloned : Stage.step (.wantColon stack before key) .colon =
          some (.wantValue (.object before key :: stack)) := rfl
      rw [memberTokens, List.cons_append, assemble_cons separated, List.cons_append,
        assemble_cons named, List.cons_append, assemble_cons coloned, List.append_assoc,
        assemble_tokens (.object before key :: stack) value, Stage.put,
        assemble_memberTokens stack ((key, value) :: before) members, List.reverse_cons,
        List.append_assoc, List.singleton_append]

end

end

/-! ## Reading -/

theorem ofTokens?_tokens (json : Json) : ofTokens? (tokens json) = some json := by
  have whole := assemble_tokens [] json []
  rw [List.append_nil] at whole
  have assembled : (tokens json).foldlM Stage.step (.wantValue []) = some (.whole json) := whole
  rw [ofTokens?, assembled]
  rfl

/-- Every spelling of a document is read as that document. -/
theorem read?_of_spells {json : Json} {text : String} (spelled : json.Spells text) :
    read? text = some json := by
  have apart := apart_tokens json [] trivial
  rw [List.append_nil] at apart
  rw [read?, tokens?_of_spells spelled apart, Option.bind_eq_bind, Option.bind_some,
    ofTokens?_tokens]

end TransferLedger.Json
