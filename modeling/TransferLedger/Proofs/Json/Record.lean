import TransferLedger.Json.Record
import TransferLedger.Proofs.Json.Printer

/-! Written values and records read back.

A record is written from what is given for each of its fields, and the slots that
are read are just that, as long as the names of the fields are distinct.
-/

namespace TransferLedger.Json

variable {α β : Type}

/-! ## Values -/

theorem bool?_bool (value : Bool) : (bool value).bool? = some value :=
  rfl

theorem text?_ofText (value : String) : (ofText value).text? = some value :=
  rfl

theorem natBelow?_ofNat {number bound : Nat} (small : number < bound) :
    (ofNat number).natBelow? bound = some number := by
  have inside : 0 ≤ (number : Int) ∧ (number : Int) < bound :=
    ⟨Int.natCast_nonneg _, Int.ofNat_lt.2 small⟩
  simp only [natBelow?, ofNat, ofInt, int?, Option.bind_eq_bind, Option.bind_some, if_pos inside,
    Int.toNat_natCast]

theorem intWithin?_ofInt {number low high : Int} (inside : low ≤ number ∧ number ≤ high) :
    (ofInt number).intWithin? low high = some number := by
  simp only [intWithin?, ofInt, int?, Option.bind_eq_bind, Option.bind_some, if_pos inside]

theorem uint32?_ofNat (value : UInt32) : (ofNat value.toNat).uint32? = some value := by
  rw [uint32?, natBelow?_ofNat value.toNat_lt_size, Option.map_some, UInt32.ofNat_toNat]

theorem uint64?_ofNat (value : UInt64) : (ofNat value.toNat).uint64? = some value := by
  rw [uint64?, natBelow?_ofNat value.toNat_lt_size, Option.map_some, UInt64.ofNat_toNat]

theorem int32?_ofInt (value : Int32) : (ofInt value.toInt).int32? = some value := by
  rw [int32?, intWithin?_ofInt ⟨value.minValue_le_toInt, value.toInt_le⟩, Option.map_some,
    Int32.ofInt_toInt]

theorem list?_array {encode : α → Json} {decode : Json → Option α}
    (back : ∀ value, decode (encode value) = some value) (values : List α) :
    (Json.array (values.map encode)).list? decode = some values := by
  have each : (values.map encode).mapM decode = some values := by
    induction values with
    | nil => rfl
    | cons value rest ih =>
        rw [List.map_cons, List.mapM_cons, back, ih]
        rfl
  rw [list?, items?, Option.bind_eq_bind, Option.bind_some, each]

theorem plainItems_map {encode : α → Json} (plain : ∀ value, Plain (encode value))
    (values : List α) : PlainItems (values.map encode) := by
  induction values with
  | nil => exact trivial
  | cons value rest ih => exact ⟨plain value, ih⟩

/-! ## Objects -/

section

variable {members : List (Literal × Json)} {names : List String} {name : String} {json : Json}
variable {texts : List (String × Json)} {slots : List (Option Json)}

def withText (member : String × Json) : Literal × Json :=
  (.text member.1, member.2)

theorem named?_texts (texts : List (String × Json)) :
    named? (texts.map withText) = some texts := by
  induction texts with
  | nil => rfl
  | cons member rest ih =>
      rw [named?] at ih
      rw [named?, List.map_cons, List.mapM_cons, ih]
      rfl

theorem named?_eq_some_iff : named? members = some texts ↔ members = texts.map withText := by
  constructor
  · intro found
    induction members generalizing texts with
    | nil =>
        cases found
        rfl
    | cons member rest ih =>
        obtain ⟨key, json⟩ := member
        simp only [named?, List.mapM_cons, Option.pure_def, Option.bind_eq_bind,
          Option.bind_eq_some_iff, Option.map_eq_some_iff] at found
        obtain ⟨first, ⟨name, key_eq, rfl⟩, later, others, whole⟩ := found
        cases key with
        | unpaired => cases key_eq
        | text key =>
            cases key_eq
            cases whole
            rw [ih others]
            rfl
  · rintro rfl
    exact named?_texts texts

/-- Every key is a text, as reading demands, and none of the names is a key twice. -/
structure Unambiguous (names : List String) (members : List (Literal × Json)) : Prop where
  named : ∀ member ∈ members, member.1 ≠ .unpaired
  once : ∀ name ∈ names, (members.map Prod.fst).count (.text name) ≤ 1

def slot (members : List (Literal × Json)) (name : String) : Option Json :=
  (members.find? fun member => member.1 == .text name).map Prod.snd

theorem named_texts (texts : List (String × Json)) :
    ∀ member ∈ texts.map withText, member.1 ≠ .unpaired := by
  intro member there
  obtain ⟨_, _, rfl⟩ := List.mem_map.1 there
  exact nofun

theorem exists_texts (named : ∀ member ∈ members, member.1 ≠ .unpaired) :
    ∃ texts : List (String × Json), members = texts.map withText := by
  induction members with
  | nil => exact ⟨[], rfl⟩
  | cons member rest ih =>
      obtain ⟨key, value⟩ := member
      obtain ⟨texts, rfl⟩ := ih fun other later => named other (List.mem_cons_of_mem _ later)
      cases key with
      | unpaired => exact absurd rfl (named _ List.mem_cons_self)
      | text key => exact ⟨(key, value) :: texts, rfl⟩

theorem text_beq (left right : String) : (Literal.text left == .text right) = (left == right) := by
  rw [Bool.eq_iff_iff, beq_iff_eq, beq_iff_eq, Literal.text.injEq]

theorem length_filter_texts (texts : List (String × Json)) (name : String) :
    (texts.filter fun member => member.1 == name).length =
      ((texts.map withText).map Prod.fst).count (.text name) := by
  have same : (fun key => key == Literal.text name) ∘ (Prod.fst ∘ withText) =
      fun member => member.1 == name := by
    funext member
    exact text_beq member.1 name
  rw [List.map_map, List.count, List.countP_map, same, List.countP_eq_length_filter]

theorem find?_texts (texts : List (String × Json)) (name : String) :
    (texts.find? fun member => member.1 == name).map Prod.snd =
      slot (texts.map withText) name := by
  have same : (fun member => member.1 == Literal.text name) ∘ withText =
      fun member => member.1 == name := by
    funext member
    exact text_beq member.1 name
  rw [slot, List.find?_map, same, Option.map_map]
  rfl

theorem slots?_eq_some_iff :
    (object members).slots? names = some slots ↔
      Unambiguous names members ∧ slots = names.map (slot members) := by
  have counted (texts : List (String × Json)) :
      (names.all fun name => (texts.filter fun member => member.1 == name).length ≤ 1) = true ↔
        ∀ name ∈ names, ((texts.map withText).map Prod.fst).count (.text name) ≤ 1 := by
    simp only [List.all_eq_true, decide_eq_true_eq, length_filter_texts]
  constructor
  · intro read
    simp only [slots?, Option.bind_eq_bind, Option.bind_eq_some_iff, named?_eq_some_iff] at read
    obtain ⟨texts, rfl, read⟩ := read
    split at read
    · rename_i once
      cases read
      refine ⟨⟨named_texts texts, (counted texts).1 once⟩, ?_⟩
      simp only [find?_texts]
    · cases read
  · rintro ⟨clear, rfl⟩
    obtain ⟨texts, rfl⟩ := exists_texts clear.named
    have found : named? (texts.map withText) = some texts := named?_eq_some_iff.2 rfl
    simp only [slots?, found, Option.bind_eq_bind, Option.bind_some, (counted texts).2 clear.once,
      if_true, find?_texts]

theorem slots?_eq_none (unclear : ¬ Unambiguous names members) :
    (object members).slots? names = none := by
  rw [Option.eq_none_iff_forall_ne_some]
  intro slots read
  exact unclear (slots?_eq_some_iff.1 read).1

/-- What stands behind a name that is no key twice. -/
theorem mem_iff_slot (once : (members.map Prod.fst).count (.text name) ≤ 1) :
    (.text name, json) ∈ members ↔ slot members name = some json := by
  induction members with
  | nil => simp [slot]
  | cons member rest ih =>
      obtain ⟨key, value⟩ := member
      by_cases same : key = .text name
      · subst same
        have found : slot ((.text name, value) :: rest) name = some value := by
          rw [slot, List.find?_cons_of_pos (by simp), Option.map_some]
        rw [List.map_cons, List.count_cons_self] at once
        have absent : .text name ∉ rest.map Prod.fst := List.count_eq_zero.1 (by omega)
        have nowhere : (.text name, json) ∉ rest := fun later =>
          absent (List.mem_map_of_mem later)
        rw [found, List.mem_cons, or_iff_left nowhere, Prod.mk.injEq, Option.some.injEq]
        exact ⟨fun both => both.2.symm, fun same => ⟨rfl, same.symm⟩⟩
      · have different : (.text name, json) ≠ (key, value) := fun equal =>
          same (congrArg Prod.fst equal).symm
        have passed : slot ((key, value) :: rest) name = slot rest name := by
          rw [slot, List.find?_cons_of_neg (by simpa using same)]
          rfl
        rw [List.map_cons, List.count_cons_of_ne same] at once
        rw [passed, List.mem_cons, or_iff_right different]
        exact ih once

end

/-! ## Records -/

/-- The members for the fields that are given. -/
def given (fields : List (String × Option Json)) : List (String × Json) :=
  fields.filterMap fun field => field.2.map fun json => (field.1, json)

variable {fields : List (String × Option Json)} {name : String} {slot : Option Json}
variable {members : List (String × Json)}

theorem given_cons (field : String × Option Json) (fields : List (String × Option Json)) :
    given (field :: fields) = given [field] ++ given fields := by
  obtain ⟨name, slot⟩ := field
  cases slot with
  | none => rfl
  | some json => rfl

theorem filter_given_one_of_ne {other : String} (different : other ≠ name) (slot : Option Json) :
    (given [(other, slot)]).filter (fun member => member.1 == name) = [] := by
  cases slot with
  | none => rfl
  | some json =>
      rw [List.filter_eq_nil_iff]
      intro member given
      cases List.mem_singleton.1 given
      simpa using different

theorem filter_given_one (name : String) (slot : Option Json) :
    (given [(name, slot)]).filter (fun member => member.1 == name) = given [(name, slot)] := by
  cases slot with
  | none => rfl
  | some json =>
      rw [List.filter_eq_self]
      intro member given
      cases List.mem_singleton.1 given
      exact beq_self_eq_true name

theorem filter_given_absent (absent : name ∉ fields.map Prod.fst) :
    (given fields).filter (fun member => member.1 == name) = [] := by
  induction fields with
  | nil => rfl
  | cons field rest ih =>
      rw [List.map_cons, List.mem_cons, not_or] at absent
      rw [given_cons, List.filter_append, ih absent.2,
        filter_given_one_of_ne (fun same => absent.1 same.symm), List.append_nil]

/-- No name finds a member but its own. -/
theorem filter_given (distinct : (fields.map Prod.fst).Nodup) (member : (name, slot) ∈ fields) :
    (given fields).filter (fun member => member.1 == name) = given [(name, slot)] := by
  induction fields with
  | nil => cases member
  | cons field rest ih =>
      rw [List.map_cons, List.nodup_cons] at distinct
      rw [given_cons, List.filter_append]
      rcases List.mem_cons.1 member with rfl | later
      · rw [filter_given_one, filter_given_absent distinct.1, List.append_nil]
      · have different : field.1 ≠ name := by
          intro same
          have member : (name, slot).1 ∈ rest.map Prod.fst := List.mem_map_of_mem later
          exact distinct.1 (same ▸ member)
        rw [filter_given_one_of_ne different, List.nil_append, ih distinct.2 later]

theorem slots?_record (distinct : (fields.map Prod.fst).Nodup) :
    (record (given fields)).slots? (fields.map Prod.fst) = some (fields.map Prod.snd) := by
  have written : record (given fields) = object ((given fields).map withText) := rfl
  rw [written, slots?_eq_some_iff]
  refine ⟨⟨named_texts _, ?_⟩, ?_⟩
  · intro name member
    obtain ⟨⟨_, slot⟩, there, rfl⟩ := List.mem_map.1 member
    rw [← length_filter_texts, filter_given distinct there]
    cases slot with
    | none => exact Nat.zero_le 1
    | some json => exact Nat.le_refl 1
  · rw [List.map_map]
    apply List.map_congr_left
    rintro ⟨name, slot⟩ there
    rw [Function.comp_apply, ← find?_texts, ← List.head?_filter, filter_given distinct there]
    cases slot with
    | none => rfl
    | some json => rfl

theorem plain_record (plain : ∀ member ∈ members, Plain member.2) : Plain (record members) := by
  rw [record, Plain]
  induction members with
  | nil => exact trivial
  | cons member rest ih =>
      exact ⟨plain member List.mem_cons_self, ih fun other later =>
        plain other (List.mem_cons_of_mem _ later)⟩

/-! ## Fields -/

variable {reader : FieldReader α} {next : α → FieldReader β} {decode : Json → Option α}
variable {slots left : List (Option Json)} {json : Json} {value default : α}

theorem field_bind (read : reader slots = some (value, left)) :
    (reader >>= next) slots = next value left := by
  change (reader slots >>= fun result => next result.1 result.2) = _
  rw [read]
  rfl

theorem required_run (read : decode json = some value) :
    required decode (some json :: slots) = some (value, slots) := by
  rw [required, read, Option.map_some]

theorem withDefault_run (read : decode json = some value) :
    withDefault default decode (some json :: slots) = some (value, slots) := by
  rw [withDefault, read, Option.map_some]

theorem withDefault_none (refused : decode json = none) :
    withDefault default decode (some json :: slots) = none := by
  rw [withDefault, refused, Option.map_none]

/-- A slot is refused or read, and what is behind it stays. -/
theorem withDefault_cases (default : α) (decode : Json → Option α) (slot : Option Json)
    (slots : List (Option Json)) :
    withDefault default decode (slot :: slots) = none ∨
      ∃ value, withDefault default decode (slot :: slots) = some (value, slots) := by
  cases slot with
  | none => exact .inr ⟨default, rfl⟩
  | some json =>
      cases read : decode json with
      | none => exact .inl (withDefault_none read)
      | some value => exact .inr ⟨value, withDefault_run read⟩

/-- A field that is left out when it has its default is read back all the same. -/
theorem withDefault_leave {left : Prop} [Decidable left] (out : left → value = default)
    (read : decode json = some value) :
    withDefault default decode ((if left then none else some json) :: slots) =
      some (value, slots) := by
  split
  · rename_i chosen
    rw [out chosen]
    rfl
  · exact withDefault_run read

theorem field_bind_none (unread : reader slots = none) : (reader >>= next) slots = none := by
  change (reader slots >>= fun result => next result.1 result.2) = _
  rw [unread]
  rfl

theorem readRecord?_record {names : List String} (named : fields.map Prod.fst = names)
    (distinct : names.Nodup) (read : reader (fields.map Prod.snd) = some (value, left)) :
    readRecord? names reader (record (given fields)) = some value := by
  subst named
  simp only [readRecord?, slots?_record distinct, read, Option.bind_eq_bind, Option.bind_some]

theorem given_members (members : List (String × Json)) :
    given (members.map fun member => (member.1, some member.2)) = members := by
  rw [given, List.filterMap_map]
  exact List.filterMap_some

/-- A record all of whose fields are given. -/
theorem readRecord?_members {names : List String} (named : members.map Prod.fst = names)
    (distinct : names.Nodup)
    (read : reader (members.map fun member => some member.2) = some (value, left)) :
    readRecord? names reader (record members) = some value := by
  have names : (members.map fun member => (member.1, some member.2)).map Prod.fst = names := by
    rw [List.map_map]
    exact named
  have slots : reader ((members.map fun member => (member.1, some member.2)).map Prod.snd) =
      some (value, left) := by
    rw [List.map_map]
    exact read
  have back := readRecord?_record names distinct slots
  rwa [given_members] at back

/-- Any object whose known keys stand in it once at most. -/
theorem readRecord?_object {names : List String} {members : List (Literal × Json)}
    (clear : Unambiguous names members)
    (read : reader (names.map (Json.slot members)) = some (value, left)) :
    readRecord? names reader (.object members) = some value := by
  have slots := slots?_eq_some_iff.2 ⟨clear, rfl⟩
  simp only [readRecord?, slots, read, Option.bind_eq_bind, Option.bind_some]

theorem readRecord?_eq_none {names : List String} {members : List (Literal × Json)}
    (unread : Unambiguous names members → reader (names.map (Json.slot members)) = none) :
    readRecord? names reader (.object members) = none := by
  by_cases clear : Unambiguous names members
  · have slots := slots?_eq_some_iff.2 ⟨clear, rfl⟩
    simp only [readRecord?, slots, unread clear, Option.bind_eq_bind, Option.bind_some,
      Option.bind_none]
  · simp only [readRecord?, slots?_eq_none clear, Option.bind_eq_bind, Option.bind_none]

end TransferLedger.Json
