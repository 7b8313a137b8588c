import TransferLedger.Proofs.Json.Record
import TransferLedger.Tuning

/-! Tunings read from documents.

A document gives a setting a number by the names that lead to it, wherever they stand among other
members.  The settings that it gives have its numbers, and all others their defaults.
-/

namespace TransferLedger

/-! ## Numbers in documents -/

namespace Json

/-- What stands in a document behind the names of a path. -/
inductive At : List String → Json → Json → Prop where
  | here {json : Json} : At [] json json
  | behind {name : String} {path : List String} {members : List (Literal × Json)}
      {json found : Json} (member : (.text name, json) ∈ members) (deeper : At path json found) :
      At (name :: path) (.object members) found

/-- A document tells a value by the number behind a path, or leaves it out. -/
structure Tells {α : Type} (means : Nat → α → Prop) (path : List String) (json : Json)
    (told : Option α) : Prop where
  given : ∀ number, At path json (.ofNat number) → ∃ value, told = some value ∧ means number value
  silent : (∀ number, ¬ At path json (.ofNat number)) → told = none

/-- Behind the name stands null or a number below the bound. -/
def OptionalBelow (bound : Nat) (members : List (Literal × Json)) (name : String) : Prop :=
  ∀ json, (.text name, json) ∈ members →
    json = .null ∨ ∃ number, number < bound ∧ json = .ofNat number

section

variable {α : Type} {means : Nat → α → Prop} {members : List (Literal × Json)} {name : String}
variable {path : List String} {json found : Json} {told : Option α} {bound : Nat}
variable {decode : Json → Option α}

theorem at_cons_iff (once : (members.map Prod.fst).count (.text name) ≤ 1) :
    At (name :: path) (.object members) found ↔
      ∃ json, slot members name = some json ∧ At path json found := by
  constructor
  · intro leads
    cases leads with
    | behind member deeper => exact ⟨_, (mem_iff_slot once).1 member, deeper⟩
  · rintro ⟨json, there, deeper⟩
    exact .behind ((mem_iff_slot once).2 there) deeper

theorem Tells.behind (once : (members.map Prod.fst).count (.text name) ≤ 1)
    (there : slot members name = some json) (tells : Tells means path json told) :
    Tells means (name :: path) (.object members) told := by
  have same (found : Json) : At (name :: path) (.object members) found ↔ At path json found := by
    simp only [at_cons_iff once, there, Option.some.injEq, exists_eq_left']
  exact ⟨fun number leads => tells.given number ((same _).1 leads),
    fun silent => tells.silent fun number leads => silent number ((same _).2 leads)⟩

theorem Tells.absent (once : (members.map Prod.fst).count (.text name) ≤ 1)
    (absent : slot members name = none) :
    Tells means (name :: path) (.object members) none := by
  refine ⟨fun number leads => ?_, fun _ => rfl⟩
  obtain ⟨json, there, _⟩ := (at_cons_iff once).1 leads
  rw [absent] at there
  cases there

theorem nullable?_number {number : Nat} {value : α}
    (decoded : decode (.ofNat number) = some value) :
    nullable? decode (.ofNat number) = some (some value) := by
  change (decode (.ofNat number)).map some = _
  rw [decoded, Option.map_some]

/-- A field is read as what the document tells. -/
theorem tells_field (once : (members.map Prod.fst).count (.text name) ≤ 1)
    (optional : OptionalBelow bound members name)
    (decodes : ∀ number, number < bound → ∃ value, decode (.ofNat number) = some value ∧
      means number value) (slots : List (Option Json)) :
    ∃ told, withDefault none (nullable? decode) (slot members name :: slots) =
      some (told, slots) ∧ Tells means [name] (.object members) told := by
  cases there : slot members name with
  | none => exact ⟨none, rfl, .absent once there⟩
  | some json =>
      rcases optional json ((mem_iff_slot once).2 there) with rfl | ⟨number, small, rfl⟩
      · refine ⟨none, rfl, .behind once there ⟨fun number leads => ?_, fun _ => rfl⟩⟩
        cases leads
      · obtain ⟨value, decoded, meant⟩ := decodes number small
        refine ⟨some value, ?_, .behind once there ⟨fun other leads => ?_, fun silent => ?_⟩⟩
        · exact withDefault_run (nullable?_number decoded)
        · cases leads
          exact ⟨value, rfl, meant⟩
        · exact absurd .here (silent number)

end

end Json

namespace Tuning

open Json (Literal Unambiguous OptionalBelow Tells At slot Token SpellTokens Piece Numeral Whole
  Exponent blank_nil)

/-! ## Forms -/

/-- What may be given for a direction. -/
structure PolicyForm (members : List (Literal × Json)) : Prop where
  /-- Every member, known or not, has a text for a name, without half of a surrogate pair. -/
  named : ∀ member ∈ members, member.1 ≠ .unpaired
  once : ∀ name ∈ PolicyOverride.fieldNames, (members.map Prod.fst).count (.text name) ≤ 1
  maxTries : OptionalBelow UInt32.size members "maxTries"
  tryTimeout : OptionalBelow UInt64.size members "tryTimeoutMs"
  retryDelay : OptionalBelow UInt64.size members "retryDelayMs"
  maxRetryDelay : OptionalBelow UInt64.size members "maxRetryDelayMs"

def IsPolicy (members : List (Literal × Json)) (name : String) : Prop :=
  ∀ json, (.text name, json) ∈ members → ∃ inner, json = .object inner ∧ PolicyForm inner

structure Form (members : List (Literal × Json)) : Prop where
  named : ∀ member ∈ members, member.1 ≠ .unpaired
  once : ∀ name ∈ fieldNames, (members.map Prod.fst).count (.text name) ≤ 1
  upload : IsPolicy members "upload"
  download : IsPolicy members "download"
  pacerWait : OptionalBelow UInt64.size members "pacerWaitMs"

def directions : List String :=
  ["upload", "download"]

/-- A known name stands twice in one object. -/
def Repeats (members : List (Literal × Json)) : Prop :=
  (∃ name ∈ fieldNames, 2 ≤ (members.map Prod.fst).count (.text name)) ∨
    ∃ direction ∈ directions, ∃ inner, (.text direction, .object inner) ∈ members ∧
      ∃ name ∈ PolicyOverride.fieldNames, 2 ≤ (inner.map Prod.fst).count (.text name)

/-- A member of the document, or of what is given for a direction, has no text for a name. -/
def Misnamed (members : List (Literal × Json)) : Prop :=
  (∃ member ∈ members, member.1 = .unpaired) ∨
    ∃ direction ∈ directions, ∃ inner, (.text direction, .object inner) ∈ members ∧
      ∃ member ∈ inner, member.1 = .unpaired

/-! ## Settings -/

/-- What a number of milliseconds is as a duration. -/
def Lasts (number : Nat) (span : Duration) : Prop :=
  span.seconds = number / 1000 ∧ span.subsecond = number % 1000 * 1000000

def Counts (number : Nat) (count : UInt32) : Prop :=
  count.toNat = number

theorem uint32?_counts (number : Nat) (small : number < UInt32.size) :
    ∃ count, (Json.ofNat number).uint32? = some count ∧ Counts number count := by
  refine ⟨UInt32.ofNat number, ?_, UInt32.toNat_ofNat_of_lt' small⟩
  rw [Json.uint32?, Json.natBelow?_ofNat small, Option.map_some]

theorem millis?_lasts (number : Nat) (small : number < UInt64.size) :
    ∃ span, millis? (.ofNat number) = some span ∧ Lasts number span := by
  refine ⟨Duration.ofMillis (UInt64.ofNat number), ?_, ?_⟩
  · rw [millis?, Json.uint64?, Json.natBelow?_ofNat small, Option.map_some, Option.map_some]
  · simp only [Lasts, Duration.seconds, Duration.subsecond, Duration.nanos_ofMillis,
      UInt64.toNat_ofNat_of_lt' small]
    omega

/-! ## Reading -/

section

variable {members : List (Literal × Json)} {name : String}

/-- What a document tells about a direction, whose object is behind a path. -/
structure PolicyTold (path : List String) (json : Json) (override : PolicyOverride) : Prop where
  maxTries : Tells Counts (path ++ ["maxTries"]) json override.maxTries
  tryTimeout : Tells Lasts (path ++ ["tryTimeoutMs"]) json override.tryTimeout
  retryDelay : Tells Lasts (path ++ ["retryDelayMs"]) json override.retryDelay
  maxRetryDelay : Tells Lasts (path ++ ["maxRetryDelayMs"]) json override.maxRetryDelay

theorem policy_read (form : PolicyForm members) :
    ∃ override, PolicyOverride.ofJson? (.object members) = some override ∧
      PolicyTold [] (.object members) override := by
  have once := form.once
  obtain ⟨maxTries, readTries, tellsTries⟩ :=
    Json.tells_field (once "maxTries" (by decide)) form.maxTries uint32?_counts
      [slot members "tryTimeoutMs", slot members "retryDelayMs", slot members "maxRetryDelayMs"]
  obtain ⟨tryTimeout, readTimeout, tellsTimeout⟩ :=
    Json.tells_field (once "tryTimeoutMs" (by decide)) form.tryTimeout millis?_lasts
      [slot members "retryDelayMs", slot members "maxRetryDelayMs"]
  obtain ⟨retryDelay, readDelay, tellsDelay⟩ :=
    Json.tells_field (once "retryDelayMs" (by decide)) form.retryDelay millis?_lasts
      [slot members "maxRetryDelayMs"]
  obtain ⟨maxRetryDelay, readCap, tellsCap⟩ :=
    Json.tells_field (once "maxRetryDelayMs" (by decide)) form.maxRetryDelay millis?_lasts []
  refine ⟨{ maxTries, tryTimeout, retryDelay, maxRetryDelay }, ?_,
    ⟨tellsTries, tellsTimeout, tellsDelay, tellsCap⟩⟩
  apply Json.readRecord?_object ⟨form.named, once⟩
  rw [PolicyOverride.fieldNames]
  simp only [List.map_cons, List.map_nil]
  rw [Json.field_bind readTries, Json.field_bind readTimeout, Json.field_bind readDelay,
    Json.field_bind readCap]
  rfl

/-- A direction is read as what the document tells about it. -/
theorem direction_read (once : (members.map Prod.fst).count (.text name) ≤ 1)
    (policy : IsPolicy members name) (slots : List (Option Json)) :
    ∃ override, Json.withDefault {} PolicyOverride.ofJson? (slot members name :: slots) =
      some (override, slots) ∧ PolicyTold [name] (.object members) override := by
  cases there : slot members name with
  | none =>
      exact ⟨{}, rfl, ⟨.absent once there, .absent once there, .absent once there,
        .absent once there⟩⟩
  | some json =>
      obtain ⟨inner, rfl, form⟩ := policy json ((Json.mem_iff_slot once).2 there)
      obtain ⟨override, read, told⟩ := policy_read form
      exact ⟨override, Json.withDefault_run read, ⟨told.maxTries.behind once there,
        told.tryTimeout.behind once there, told.retryDelay.behind once there,
        told.maxRetryDelay.behind once there⟩⟩

theorem tuning_read (form : Form members) :
    ∃ upload download pacerWait,
      ofJson? (.object members) = some {
        upload := PolicyOverride.apply upload .forUpload
        download := PolicyOverride.apply download .forDownload
        pacerWait := pacerWait.getD (.ofMillis 50) } ∧
      PolicyTold ["upload"] (.object members) upload ∧
      PolicyTold ["download"] (.object members) download ∧
      Tells Lasts ["pacerWaitMs"] (.object members) pacerWait := by
  have once := form.once
  obtain ⟨upload, readUpload, toldUpload⟩ := direction_read (once "upload" (by decide)) form.upload
    [slot members "download", slot members "pacerWaitMs"]
  obtain ⟨download, readDownload, toldDownload⟩ :=
    direction_read (once "download" (by decide)) form.download [slot members "pacerWaitMs"]
  obtain ⟨pacerWait, readWait, toldWait⟩ :=
    Json.tells_field (once "pacerWaitMs" (by decide)) form.pacerWait millis?_lasts []
  refine ⟨upload, download, pacerWait, ?_, toldUpload, toldDownload, toldWait⟩
  apply Json.readRecord?_object ⟨form.named, once⟩
  rw [fieldNames]
  simp only [List.map_cons, List.map_nil]
  rw [Json.field_bind readUpload, Json.field_bind readDownload, Json.field_bind readWait]
  rfl

/-- What is ambiguous, the document or what it gives for a direction, makes all of it refused. -/
theorem ofJson?_eq_none
    (unclear : ¬ Unambiguous fieldNames members ∨ ∃ direction ∈ directions, ∃ inner,
      (.text direction, .object inner) ∈ members ∧ ¬ Unambiguous PolicyOverride.fieldNames inner) :
    ofJson? (.object members) = none := by
  apply Json.readRecord?_eq_none
  intro clear
  obtain ⟨direction, direct, inner, member, unclear⟩ := unclear.resolve_left (not_not_intro clear)
  have refused : PolicyOverride.ofJson? (.object inner) = none :=
    Json.readRecord?_eq_none fun clear => absurd clear unclear
  have known : direction ∈ fieldNames := List.mem_append_left ["pacerWaitMs"] direct
  have there := (Json.mem_iff_slot (clear.once direction known)).1 member
  have fails (slots : List (Option Json)) :
      Json.withDefault {} PolicyOverride.ofJson? (slot members direction :: slots) = none := by
    rw [there]
    exact Json.withDefault_none refused
  rw [fieldNames]
  simp only [List.map_cons, List.map_nil]
  rcases List.mem_cons.1 direct with rfl | last
  · exact Json.field_bind_none (fails _)
  cases List.mem_singleton.1 last
  rcases Json.withDefault_cases {} PolicyOverride.ofJson? (slot members "upload")
    [slot members "download", slot members "pacerWaitMs"] with unread | ⟨upload, read⟩
  · exact Json.field_bind_none unread
  · rw [Json.field_bind read]
    exact Json.field_bind_none (fails _)

theorem not_unambiguous_of_twice {names : List String} (known : name ∈ names)
    (twice : 2 ≤ (members.map Prod.fst).count (.text name)) : ¬ Unambiguous names members := by
  intro clear
  have once := clear.once name known
  omega

theorem ofJson?_of_repeats (repeats : Repeats members) : ofJson? (.object members) = none := by
  apply ofJson?_eq_none
  rcases repeats with ⟨name, known, twice⟩ | ⟨direction, direct, inner, member, name, known, twice⟩
  · exact .inl (not_unambiguous_of_twice known twice)
  · exact .inr ⟨direction, direct, inner, member, not_unambiguous_of_twice known twice⟩

theorem ofJson?_of_misnamed (misnamed : Misnamed members) : ofJson? (.object members) = none := by
  apply ofJson?_eq_none
  rcases misnamed with ⟨first, there, unnamed⟩ |
    ⟨direction, direct, inner, member, first, there, unnamed⟩
  · exact .inl fun clear => clear.named first there unnamed
  · exact .inr ⟨direction, direct, inner, member, fun clear => clear.named first there unnamed⟩

end

/-! ## Tunings -/

/-- A value is what the document says, or the default. -/
structure Settles {α : Type} (means : Nat → α → Prop) (path : List String) (json : Json)
    (value default : α) : Prop where
  given : ∀ number, At path json (.ofNat number) → means number value
  kept : (∀ number, ¬ At path json (.ofNat number)) → value = default

structure PolicySettles (direction : String) (json : Json) (policy default : RetryPolicy) :
    Prop where
  maxTries : Settles Counts [direction, "maxTries"] json policy.maxTries default.maxTries
  tryTimeout : Settles Lasts [direction, "tryTimeoutMs"] json policy.tryTimeout default.tryTimeout
  retryDelay : Settles Lasts [direction, "retryDelayMs"] json policy.retryDelay default.retryDelay
  maxRetryDelay :
    Settles Lasts [direction, "maxRetryDelayMs"] json policy.maxRetryDelay default.maxRetryDelay

/-- The tuning has the numbers of the document and the defaults for all others. -/
structure Overridden (json : Json) (tuning : Tuning) : Prop where
  upload : PolicySettles "upload" json tuning.upload .forUpload
  download : PolicySettles "download" json tuning.download .forDownload
  pacerWait : Settles Lasts ["pacerWaitMs"] json tuning.pacerWait (.ofMillis 50)

/-- The paths to the known numbers. -/
def paths : List (List String) :=
  (directions.flatMap fun direction =>
    PolicyOverride.fieldNames.map fun name => [direction, name]) ++ [["pacerWaitMs"]]

/-- The documents give the same known numbers, in whatever order and among whatever else. -/
def Agree (left right : Json) : Prop :=
  ∀ path ∈ paths, ∀ number, At path left (.ofNat number) ↔ At path right (.ofNat number)

section

variable {α : Type} {means : Nat → α → Prop} {path : List String} {json left right : Json}
variable {told : Option α} {value other default : α}

theorem settles_getD (tells : Tells means path json told) (default : α) :
    Settles means path json (told.getD default) default := by
  refine ⟨fun number leads => ?_, fun silent => ?_⟩
  · obtain ⟨value, rfl, meant⟩ := tells.given number leads
    exact meant
  · rw [tells.silent silent]
    rfl

theorem policy_settles {direction : String} {override : PolicyOverride}
    (told : PolicyTold [direction] json override) (default : RetryPolicy) :
    PolicySettles direction json (override.apply default) default where
  maxTries := settles_getD told.maxTries default.maxTries
  tryTimeout := settles_getD told.tryTimeout default.tryTimeout
  retryDelay := settles_getD told.retryDelay default.retryDelay
  maxRetryDelay := settles_getD told.maxRetryDelay default.maxRetryDelay

theorem Settles.unique
    (single : ∀ number left right, means number left → means number right → left = right)
    (agree : ∀ number, At path left (.ofNat number) ↔ At path right (.ofNat number))
    (settles : Settles means path left value default)
    (also : Settles means path right other default) : value = other := by
  by_cases given : ∃ number, At path left (.ofNat number)
  · obtain ⟨number, leads⟩ := given
    exact single number value other (settles.given number leads)
      (also.given number ((agree number).1 leads))
  · have silent : ∀ number, ¬ At path left (.ofNat number) := not_exists.1 given
    rw [settles.kept silent, also.kept fun number leads => silent number ((agree number).2 leads)]

theorem counts_unique (number : Nat) (left right : UInt32) (first : Counts number left)
    (second : Counts number right) : left = right :=
  UInt32.toNat_inj.1 (first.trans second.symm)

theorem lasts_unique (number : Nat) (left right : Duration) (first : Lasts number left)
    (second : Lasts number right) : left = right := by
  have seconds := first.1.trans second.1.symm
  have subsecond := first.2.trans second.2.symm
  simp only [Duration.seconds, Duration.subsecond] at seconds subsecond
  have nanos : left.nanos = right.nanos := by omega
  obtain ⟨_, _⟩ := left
  obtain ⟨_, _⟩ := right
  cases nanos
  rfl

theorem PolicySettles.unique {direction : String} {policy other default : RetryPolicy}
    (agree : ∀ name ∈ PolicyOverride.fieldNames, ∀ number,
      At [direction, name] left (.ofNat number) ↔ At [direction, name] right (.ofNat number))
    (settles : PolicySettles direction left policy default)
    (also : PolicySettles direction right other default) : policy = other := by
  have maxTries := settles.maxTries.unique counts_unique (agree _ (by decide)) also.maxTries
  have tryTimeout := settles.tryTimeout.unique lasts_unique (agree _ (by decide)) also.tryTimeout
  have retryDelay := settles.retryDelay.unique lasts_unique (agree _ (by decide)) also.retryDelay
  have maxRetryDelay :=
    settles.maxRetryDelay.unique lasts_unique (agree _ (by decide)) also.maxRetryDelay
  obtain ⟨_, _, _, _⟩ := policy
  obtain ⟨_, _, _, _⟩ := other
  cases maxTries
  cases tryTimeout
  cases retryDelay
  cases maxRetryDelay
  rfl

/-- What the documents give is all that a tuning depends on. -/
theorem Overridden.unique {tuning other : Tuning} (agree : Agree left right)
    (overridden : Overridden left tuning) (also : Overridden right other) : tuning = other := by
  have behind (direction : String) (known : direction ∈ directions) :
      ∀ name ∈ PolicyOverride.fieldNames, ∀ number,
        At [direction, name] left (.ofNat number) ↔ At [direction, name] right (.ofNat number) := by
    intro name inside
    apply agree
    exact List.mem_append_left _
      (List.mem_flatMap.2 ⟨direction, known, List.mem_map.2 ⟨name, inside, rfl⟩⟩)
  have upload := overridden.upload.unique (behind "upload" (by decide)) also.upload
  have download := overridden.download.unique (behind "download" (by decide)) also.download
  have pacerWait :=
    overridden.pacerWait.unique lasts_unique (agree _ (by decide)) also.pacerWait
  obtain ⟨_, _, _⟩ := tuning
  obtain ⟨_, _, _⟩ := other
  cases upload
  cases download
  cases pacerWait
  rfl

theorem overridden_read {members : List (Literal × Json)} (form : Form members) :
    ∃ tuning, ofJson? (.object members) = some tuning ∧ Overridden (.object members) tuning := by
  obtain ⟨upload, download, pacerWait, read, toldUpload, toldDownload, toldWait⟩ :=
    tuning_read form
  exact ⟨_, read, policy_settles toldUpload .forUpload, policy_settles toldDownload .forDownload,
    settles_getD toldWait (.ofMillis 50)⟩

theorem ofText?_of_spells {json : Json} {text : String} (spelled : json.Spells text) :
    ofText? text = ofJson? json := by
  rw [ofText?, Json.parse?, Json.read?_of_spells spelled]
  rfl

/-- The order of the members makes no difference to what they give. -/
theorem agree_of_perm {members others : List (Literal × Json)} (perm : members.Perm others) :
    Agree (.object members) (.object others) := by
  have carry (left right : List (Literal × Json)) (perm : left.Perm right) (path : List String)
      (found : Json) (proper : path ≠ []) (leads : At path (.object left) found) :
      At path (.object right) found := by
    cases leads with
    | here => exact absurd rfl proper
    | behind member deeper => exact .behind (perm.mem_iff.1 member) deeper
  have proper : ∀ path ∈ paths, path ≠ [] := by decide
  intro path known number
  exact ⟨carry members others perm path _ (proper path known),
    carry others members perm.symm path _ (proper path known)⟩

/-- A document overrides field by field.  Only the numbers that it gives matter, not their order
and not what stands between them.  A name given twice is never chosen from, and a name that is
no text is not passed over, though nothing unknown is read. -/
theorem overrides_exact {members : List (Literal × Json)} {text : String}
    (spelled : (Json.object members).Spells text) :
    (Form members →
      ∃ tuning, ofText? text = some tuning ∧ Overridden (.object members) tuning ∧
        ∀ others otherText, (Json.object others).Spells otherText → Form others →
          Agree (.object members) (.object others) → ofText? otherText = some tuning) ∧
      (Repeats members → ofText? text = none) ∧ (Misnamed members → ofText? text = none) := by
  refine ⟨fun form => ?_, fun repeats =>
    (ofText?_of_spells spelled).trans (ofJson?_of_repeats repeats), fun misnamed =>
    (ofText?_of_spells spelled).trans (ofJson?_of_misnamed misnamed)⟩
  obtain ⟨tuning, found, overridden⟩ := overridden_read form
  refine ⟨tuning, (ofText?_of_spells spelled).trans found, overridden, ?_⟩
  intro others otherText otherSpelled otherForm agree
  obtain ⟨other, otherFound, also⟩ := overridden_read otherForm
  rw [ofText?_of_spells otherSpelled, otherFound, overridden.unique agree also]

end

/-! ## Members in another order -/

theorem spells_open : Token.Spells .openObject ['\x7b'] :=
  .mark (by decide)

theorem spells_colon : Token.Spells .colon [':'] :=
  .mark (by decide)

theorem spells_comma : Token.Spells .comma [','] :=
  .mark (by decide)

theorem spells_close : Token.Spells .closeObject ['\x7d'] :=
  .mark (by decide)

theorem spells_end : SpellTokens [.closeObject] ['\x7d'] := by
  have ended := SpellTokens.cons blank_nil spells_close (.nil blank_nil)
  exact ended

theorem spells_escapedName : Token.Spells (.string (.text "upload"))
    ('"' :: (['\\', 'u', '0', '0', '7', '5', 'p', 'l', 'o', 'a', 'd'] ++ ['"'])) := by
  have first : Piece.Spells (.char 'u') ['\\', 'u', '0', '0', '7', '5'] :=
    .unit (rfl : Json.unit? ['0', '0', '7', '5'] = some 0x75) (.inl (by decide))
  exact .string (.cons first (Json.spells_escapes ['p', 'l', 'o', 'a', 'd']))

theorem spells_hugeNumber :
    Token.Spells (.number (.real "1e999")) ['1', 'e', '9', '9', '9'] := by
  have whole : Whole ['1'] := ⟨by decide, by decide⟩
  have power : Exponent ['e', '9', '9', '9'] :=
    .power (.inl rfl) (by decide : [] ∈ [[], ['+'], ['-']]) (by decide)
  exact .number (.real (by decide : [] ∈ [[], ['-']]) whole .absent power (by decide))

/-- The object behind the escaped name, and what follows it. -/
theorem spells_oneSetting {tokens : List Token} {rest : List Char}
    (later : SpellTokens tokens rest) :
    SpellTokens (.string (.text "upload") :: .colon :: .openObject :: .string (.text "maxTries") ::
        .colon :: .number (.integer 7) :: .closeObject :: tokens)
      ("\"\\u0075pload\":\x7b\"maxTries\":7\x7d".toList ++ rest) := by
  have seven : Token.Spells (.number (.integer 7)) ['7'] := .number (Numeral.spells_integer 7)
  have inner := SpellTokens.cons blank_nil (Json.spells_text "maxTries")
    (.cons blank_nil spells_colon (.cons blank_nil seven (.cons blank_nil spells_close later)))
  have whole := SpellTokens.cons blank_nil spells_escapedName
    (.cons blank_nil spells_colon (.cons blank_nil spells_open inner))
  exact whole

def unknownMember : Literal × Json :=
  (.text "x", .number (.real "1e999"))

def oneSetting : Literal × Json :=
  (.text "upload", .object [(.text "maxTries", .ofNat 7)])

theorem spells_last : (Json.object [unknownMember, oneSetting]).Spells
    "\x7b\"x\":1e999 ,\"\\u0075pload\":\x7b\"maxTries\":7\x7d\x7d" := by
  have space : Json.Blank [' '] := by decide
  have whole := SpellTokens.cons blank_nil spells_open (.cons blank_nil (Json.spells_text "x")
    (.cons blank_nil spells_colon (.cons blank_nil spells_hugeNumber
      (.cons space spells_comma (spells_oneSetting spells_end)))))
  exact whole

theorem spells_first : (Json.object [oneSetting, unknownMember]).Spells
    "\x7b\"\\u0075pload\":\x7b\"maxTries\":7\x7d,\"x\":1e999\x7d" := by
  have whole := SpellTokens.cons blank_nil spells_open (spells_oneSetting
    (.cons blank_nil spells_comma (.cons blank_nil (Json.spells_text "x")
      (.cons blank_nil spells_colon (.cons blank_nil spells_hugeNumber spells_end)))))
  exact whole

theorem spells_twice : (Json.object [oneSetting, oneSetting]).Spells
    "\x7b\"\\u0075pload\":\x7b\"maxTries\":7\x7d,\"\\u0075pload\":\x7b\"maxTries\":7\x7d\x7d" := by
  have whole := SpellTokens.cons blank_nil spells_open (spells_oneSetting
    (.cons blank_nil spells_comma (spells_oneSetting spells_end)))
  exact whole

theorem policyForm_oneSetting : PolicyForm [(.text "maxTries", .ofNat 7)] where
  named := by decide
  once := by decide
  maxTries json member := .inr ⟨7, by decide, by simpa using member⟩
  tryTimeout json member := by simp at member
  retryDelay json member := by simp at member
  maxRetryDelay json member := by simp at member

theorem form_oneSetting {members : List (Literal × Json)}
    (perm : members.Perm [unknownMember, oneSetting]) : Form members where
  named member there := by
    have named : ∀ member ∈ [unknownMember, oneSetting], member.1 ≠ .unpaired := by decide
    exact named member (perm.mem_iff.1 there)
  once name known := by
    have once : ∀ name ∈ fieldNames,
        ([unknownMember, oneSetting].map Prod.fst).count (.text name) ≤ 1 := by decide
    rw [(perm.map Prod.fst).count_eq]
    exact once name known
  upload json member := by
    refine ⟨_, ?_, policyForm_oneSetting⟩
    simpa [unknownMember, oneSetting] using perm.mem_iff.1 member
  download json member := by
    have there := perm.mem_iff.1 member
    simp [unknownMember, oneSetting] at there
  pacerWait json member := by
    have there := perm.mem_iff.1 member
    simp [unknownMember, oneSetting] at there

/-- The setting may stand before or behind an unknown member, but not twice. -/
theorem overrides_exact_reordered :
    ∃ tuning,
      ofText? "\x7b\"x\":1e999 ,\"\\u0075pload\":\x7b\"maxTries\":7\x7d\x7d" = some tuning ∧
      tuning.upload.maxTries = 7 ∧
      ofText? "\x7b\"\\u0075pload\":\x7b\"maxTries\":7\x7d,\"x\":1e999\x7d" = some tuning ∧
      ofText?
        "\x7b\"\\u0075pload\":\x7b\"maxTries\":7\x7d,\"\\u0075pload\":\x7b\"maxTries\":7\x7d\x7d" =
          none := by
  obtain ⟨tuning, read, overridden, others⟩ :=
    (overrides_exact spells_last).1 (form_oneSetting (.refl _))
  have seven : At ["upload", "maxTries"] (.object [unknownMember, oneSetting]) (.ofNat 7) :=
    .behind (List.mem_cons_of_mem _ List.mem_cons_self) (.behind List.mem_cons_self .here)
  refine ⟨tuning, read, UInt32.toNat_inj.1 (overridden.upload.maxTries.given 7 seven), ?_, ?_⟩
  · exact others _ _ spells_first (form_oneSetting (.swap _ _ _)) (agree_of_perm (.swap _ _ _))
  · exact (overrides_exact spells_twice).2.1 (.inl ⟨"upload", by decide, by decide⟩)

theorem spells_halfName :
    (Json.object [(.unpaired, .ofNat 0)]).Spells "\x7b\"\\ud800\":0\x7d" := by
  have half : Piece.Spells (.high 0xD800) ['\\', 'u', 'd', '8', '0', '0'] :=
    .high (rfl : Json.unit? ['d', '8', '0', '0'] = some 0xD800) (by decide)
  have name : Token.Spells (.string .unpaired)
      ('"' :: (['\\', 'u', 'd', '8', '0', '0'] ++ ['"'])) :=
    .string (.cons half .nil)
  have zero : Token.Spells (.number (.integer 0)) ['0'] := .number (Numeral.spells_integer 0)
  have whole := SpellTokens.cons blank_nil spells_open (.cons blank_nil name
    (.cons blank_nil spells_colon (.cons blank_nil zero spells_end)))
  exact whole

/-- A document with one unknown member, which is refused for the name of that member. -/
theorem not_overridden_of_halfName :
    (Json.object [(.unpaired, .ofNat 0)]).Spells "\x7b\"\\ud800\":0\x7d" ∧
      (∀ name ∈ fieldNames, .text name ∉ [Literal.unpaired]) ∧
      ofText? "\x7b\"\\ud800\":0\x7d" = none := by
  have misnamed : Misnamed [(.unpaired, .ofNat 0)] := .inl ⟨_, List.mem_cons_self, rfl⟩
  exact ⟨spells_halfName, by decide,
    (ofText?_of_spells spells_halfName).trans (ofJson?_of_misnamed misnamed)⟩

end Tuning

end TransferLedger
