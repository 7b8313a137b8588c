import TransferLedger.Proofs.Job

/-! Runs of a job whose actions come in different orders.

What is told of a transfer and counted for it follows from the calls for that transfer
alone.  So two runs that make the same calls for every transfer, and create the same parts,
come to the same end, however the calls for different transfers are mixed.
-/

namespace TransferLedger.Job

open Plan (Order Region Handle)

/-! ## The share of one transfer -/

def Action.call? (key : Key) : Action → Option Call
  | .call one made => if one = key then some made else none
  | .recordPart _ => none

def Action.part? : Action → Option PartCounts
  | .call _ _ => none
  | .recordPart counts => some counts

/-- The transfer that an action is about. -/
def Action.target? : Action → Option Key
  | .call key _ => some key
  | .recordPart _ => none

/-- The calls for a transfer, in turn. -/
def callsOf (key : Key) (events : List Event) : List Call :=
  events.filterMap fun event => event.action.call? key

def partsOf (events : List Event) : List PartCounts :=
  events.filterMap fun event => event.action.part?

/-- The same parts are created, and each transfer is called the same way in turn. -/
structure Rearranged (first second : List Event) : Prop where
  calls : ∀ key, callsOf key first = callsOf key second
  parts : (partsOf first).Perm (partsOf second)

/-- The answers to what is about the target, in turn. -/
def answersTo (target? : Option Key) (job : Job) : List Event → List (Option Answer)
  | [] => []
  | event :: rest =>
      let (answer, after) := job.perform event
      let answers := after.answersTo target? rest
      if event.action.target? = target? then answer :: answers else answers

/-- The answers to the calls for a transfer that is in the phase. -/
def told (orders : List Order) (key : Key) (phase : Phase) : List Call → List (Option Answer)
  | [] => []
  | call :: rest => answer? orders key phase call :: told orders key (phase.call call) rest

/-- What the tally counts of the calls for a transfer that is in the phase. -/
def endings (orders : List Order) (key : Key) (phase : Phase) : List Call → List Summary.Detail
  | [] => []
  | call :: rest => details orders key phase call ++ endings orders key (phase.call call) rest

/-- What the tally counts in a run, each with its transfer. -/
def entries (orders : List Order) (states : Key → Phase) :
    List Event → List (Key × Summary.Detail)
  | [] => []
  | { action := .call key call, .. } :: rest =>
      (details orders key (states key) call).map (Prod.mk key) ++
        entries orders (callAt states key call) rest
  | { action := .recordPart _, .. } :: rest => entries orders states rest

variable {job twin : Job} {orders : List Order} {states : Key → Phase} {summary seed : Summary}
variable {events first second : List Event} {key : Key} {made : Call} {counts : PartCounts}
variable {now : UInt64}

theorem callsOf_cons_self (call : Call) (now : UInt64) (rest : List Event) :
    callsOf key ({ action := .call key call, now } :: rest) = call :: callsOf key rest := by
  simp only [callsOf, List.filterMap_cons, Action.call?, if_true]

theorem callsOf_cons_of_ne {one : Key} (different : one ≠ key) (call : Call) (now : UInt64)
    (rest : List Event) :
    callsOf key ({ action := .call one call, now } :: rest) = callsOf key rest := by
  simp only [callsOf, List.filterMap_cons, Action.call?, if_neg different]

/-- The phases that some events lead to: each transfer is led by its own calls. -/
theorem foldl_callAt (states : Key → Phase) (one : Key) (call : Call) (now : UInt64)
    (rest : List Event) (key : Key) :
    (callsOf key rest).foldl Phase.call (callAt states one call key) =
      (callsOf key ({ action := .call one call, now } :: rest)).foldl Phase.call (states key) := by
  by_cases here : key = one
  · subst here
    rw [callAt_self, callsOf_cons_self, List.foldl_cons]
  · rw [callAt_of_ne here, callsOf_cons_of_ne (Ne.symm here)]

/-- What is counted for one transfer follows from the calls for it. -/
theorem filter_entries (orders : List Order) (states : Key → Phase) (events : List Event)
    (key : Key) :
    (entries orders states events).filter (fun entry => entry.1 = key) =
      (endings orders key (states key) (callsOf key events)).map (Prod.mk key) := by
  induction events generalizing states with
  | nil => rfl
  | cons event rest ih =>
      obtain ⟨action, now⟩ := event
      cases action with
      | call one call =>
          rw [entries, List.filter_append, ih]
          by_cases here : key = one
          · subst here
            rw [callAt_self, callsOf_cons_self, endings, List.map_append]
            congr 1
            exact List.filter_eq_self.2 (by simp)
          · rw [callAt_of_ne here, callsOf_cons_of_ne (Ne.symm here)]
            have none : ((details orders one (states one) call).map (Prod.mk one)).filter
                (fun entry => entry.1 = key) = [] := by
              refine List.filter_eq_nil_iff.2 ?_
              simp [Ne.symm here]
            rw [none, List.nil_append]
      | recordPart counts => exact ih states

/-- Lists are permutations of each other if they are the same for every key. -/
theorem perm_of_filter {first second : List (Key × Summary.Detail)}
    (same : ∀ key, first.filter (fun entry => entry.1 = key) =
      second.filter (fun entry => entry.1 = key)) : first.Perm second := by
  refine List.perm_iff_count.2 fun entry => ?_
  have here : decide (entry.1 = entry.1) = true := decide_eq_true rfl
  have counts (entries : List (Key × Summary.Detail)) :
      entries.count entry = (entries.filter fun other => other.1 = entry.1).count entry :=
    (List.count_filter (p := fun other : Key × Summary.Detail => other.1 = entry.1) here).symm
  rw [counts, same, ← counts]

theorem Rearranged.entries_perm (rearranged : Rearranged first second) (orders : List Order)
    (states : Key → Phase) :
    (entries orders states first).Perm (entries orders states second) := by
  refine perm_of_filter fun key => ?_
  rw [filter_entries, filter_entries, rearranged.calls]

/-! ## Runs -/

/-- What a run comes to, each transfer by its own calls. -/
structure ComesTo (orders : List Order) (states : Key → Phase) (summary : Summary)
    (events : List Event) (job : Job) : Prop where
  stands : (job.run events).Stands orders
    (fun key => (callsOf key events).foldl Phase.call (states key))
    ((summary.withParts (partsOf events)).withDetails
      ((entries orders states events).map Prod.snd))
  told : ∀ key, job.answersTo (some key) events = told orders key (states key) (callsOf key events)
  recorded : job.answersTo none events = (partsOf events).map fun _ => some (.ok none)

theorem ComesTo.call (answer : (job.call key made now).1 = answer? orders key (states key) made)
    (after : (job.call key made now).2.ComesTo orders (callAt states key made)
      (summary.withDetails (details orders key (states key) made)) events) :
    job.ComesTo orders states summary ({ action := .call key made, now } :: events) where
  stands := by
    have counted : (entries orders states ({ action := .call key made, now } :: events)).map
        Prod.snd = details orders key (states key) made ++
          (entries orders (callAt states key made) events).map Prod.snd := by
      rw [entries, List.map_append, List.map_map]
      simp only [Function.comp_def, List.map_id']
    have stood := after.stands
    simp only [foldl_callAt states key made now events, Summary.withParts_withDetails,
      ← Summary.withDetails_append] at stood
    rw [counted]
    exact stood
  told other := by
    have step : job.answersTo (some other) ({ action := .call key made, now } :: events) =
        if some key = some other then
          (job.call key made now).1 :: (job.call key made now).2.answersTo (some other) events
        else (job.call key made now).2.answersTo (some other) events := rfl
    rw [step, after.told other, answer]
    by_cases here : key = other
    · subst here
      rw [if_pos rfl, callAt_self, callsOf_cons_self, Job.told]
    · rw [if_neg fun same => here (Option.some.inj same), callAt_of_ne (Ne.symm here),
        callsOf_cons_of_ne here]
  recorded := after.recorded

theorem ComesTo.recordPart {after : Job}
    (recorded : job.perform { action := .recordPart counts, now } = (some (.ok none), after))
    (rest : after.ComesTo orders states (summary.addPart counts) events) :
    job.ComesTo orders states summary ({ action := .recordPart counts, now } :: events) where
  stands := by
    have stood := rest.stands
    have final : job.run ({ action := .recordPart counts, now } :: events) = after.run events := by
      rw [run, List.foldl_cons, recorded, run]
    rw [Summary.withParts_addPart] at stood
    rw [final]
    exact stood
  told key := by
    have step : job.answersTo (some key) ({ action := .recordPart counts, now } :: events) =
        (job.perform { action := .recordPart counts, now }).2.answersTo (some key) events := rfl
    rw [step, recorded]
    exact rest.told key
  recorded := by
    have step : job.answersTo none ({ action := .recordPart counts, now } :: events) =
        (job.perform { action := .recordPart counts, now }).1 ::
          (job.perform { action := .recordPart counts, now }).2.answersTo none events := rfl
    rw [step, recorded, rest.recorded]
    rfl

/-- By induction on the events, for any phases and totals at first. -/
theorem Stands.run (stands : job.Stands orders states summary)
    (runs : ∀ event ∈ events, event.now ≠ 0) : job.ComesTo orders states summary events := by
  induction events generalizing job states summary with
  | nil =>
      have same : (summary.withParts (partsOf [])).withDetails
          ((entries orders states []).map Prod.snd) = summary := by
        rw [partsOf, List.filterMap_nil, Summary.withParts_nil]
        exact Summary.withDetails_nil summary
      refine ⟨?_, fun _ => rfl, rfl⟩
      rw [same]
      exact stands
  | cons event rest ih =>
      obtain ⟨action, now⟩ := event
      have goes : now ≠ 0 := runs _ List.mem_cons_self
      have later : ∀ event ∈ rest, event.now ≠ 0 := fun event member =>
        runs event (List.mem_cons_of_mem _ member)
      cases action with
      | call key call =>
          obtain ⟨answer, next⟩ := stands.call key call goes
          exact .call answer (ih next later)
      | recordPart counts =>
          obtain ⟨recorded, next⟩ := stands.recordPart counts now
          exact .recordPart recorded (ih next later)

/-! ## Two runs -/

/-- The status and the completion time that are read in the plan of a transfer. -/
def reads (job : Job) (key : Key) : Option (Except Plan.Fault (TransferStatus × UInt64)) :=
  job.handles[key.1]?.map fun handle => do
    let record ← handle.record job.volume key.2
    let status ← handle.transferStatus job.volume record
    let nanos ← handle.completionTime job.volume record
    .ok (status, nanos)

theorem Stands.reads_eq {order : Order} (stands : job.Stands orders states summary)
    (here : orders[key.1]? = some order) (known : key.2.toNat < order.items.length) :
    ∃ nanos, job.reads key = some (.ok ((states key).status, nanos)) ∧
      (nanos = 0 ↔ (states key).ended = false) := by
  obtain ⟨handle, region, found, shown, phase⟩ := stands.plans key.1 order here
  have valid := stands.valid order (List.mem_of_getElem? here)
  have item := List.getElem?_eq_getElem known
  have record : handle.record job.volume key.2 = .ok _ :=
    (shown.view_eq fun region => region.record key.2).trans (phase.kept.record_eq valid item)
  have status : region.transferStatus key.2 = .ok (states key).status := phase.status key.2 known
  refine ⟨(region.words key.2).time, ?_, phase.ended key.2 known⟩
  rw [reads, found, Option.map_some, record, ok_bind, Handle.transferStatus, shown.view_eq, status,
    ok_bind, Handle.completionTime, shown.view_eq, ok_bind, Region.words]

/-- Two runs make the same calls for each transfer in turn and create the same parts, however
they mix them and wherever their plans are kept.  What is about the same target is answered
the same, the plans end with the same statuses and have the same transfers stamped, and the
totals differ in the order of the details only. -/
theorem run_rearranged (begins : job.Begins orders seed) (again : twin.Begins orders seed)
    (rearranged : Rearranged first second) (runs : ∀ event ∈ first ++ second, event.now ≠ 0) :
    (∀ target?, job.answersTo target? first = twin.answersTo target? second) ∧
    (∀ (key : Key) (order : Order), orders[key.1]? = some order →
      key.2.toNat < order.items.length → ∃ status nanos later,
        (job.run first).reads key = some (.ok (status, nanos)) ∧
        (twin.run second).reads key = some (.ok (status, later)) ∧ (nanos = 0 ↔ later = 0)) ∧
    ∀ now later, ∃ one other, (job.run first).tally.snapshot now = .ok one ∧
      (twin.run second).tally.snapshot later = .ok other ∧
      other = { one with
        timestamp := later, failures := other.failures, skips := other.skips } ∧
      one.failures.Perm other.failures ∧ one.skips.Perm other.skips := by
  have done := begins.stands.run fun event member => runs event (List.mem_append_left _ member)
  have ends := again.stands.run fun event member => runs event (List.mem_append_right _ member)
  have parts := Summary.withParts_perm rearranged.parts seed
  have details := (rearranged.entries_perm orders fun _ => {}).map Prod.snd
  refine ⟨fun target? => ?_, fun key order here known => ?_, fun now later => ?_⟩
  · cases target? with
    | none =>
        rw [done.recorded, ends.recorded, List.map_const', List.map_const',
          rearranged.parts.length_eq]
    | some key => rw [done.told, ends.told, rearranged.calls]
  · obtain ⟨nanos, told, stamped⟩ := done.stands.reads_eq here known
    obtain ⟨later, same, alike⟩ := ends.stands.reads_eq here known
    rw [← rearranged.calls] at same alike
    exact ⟨_, nanos, later, told, same, stamped.trans alike.symm⟩
  · obtain ⟨same, failures, skips⟩ :=
      Summary.withDetails_perm details (seed.withParts (partsOf first))
    rw [parts] at same failures skips
    rw [done.stands.tally, ends.stands.tally, parts]
    refine ⟨_, _, rfl, rfl, ?_, failures, skips⟩
    exact congrArg (fun summary : Summary =>
      { summary with timestamp := later, errorMessage := "" }) same

/-- Two plans, once with the second one in a file and once with both in memory.  The second
run has the failures of the second plan in the other order. -/
theorem run_rearranged_failures :
    let orders : List Order := [{ items := [{ source := "a", size := 7 }] },
      { items := [{ source := "b" }, { source := "é", size := 5 }] }]
    let place : Volume.Place := { depth := 1, names := ["plan"] }
    let inMemory (order : Order) : Handle :=
      { backing := .memory order.image, count := .ofNat order.items.length }
    let job : Job := {
      volume := ({} : Volume).put place (.file { bytes := orders[1].image })
      handles := [inMemory orders[0], { backing := .file place orders[1].image.size, count := 2 }]
      tally := .ofSummary {} }
    let twin : Job := {
      volume := {}, handles := [inMemory orders[0], inMemory orders[1]], tally := .ofSummary {} }
    let first : List Event := [⟨.call (0, 0) (.report .success 0), 1⟩, ⟨.recordPart {}, 2⟩,
      ⟨.call (1, 1) (.report .failed 5), 3⟩, ⟨.call (1, 0) (.report .failed 6), 4⟩,
      ⟨.call (0, 0) .start, 5⟩, ⟨.recordPart { isFinal := true }, 6⟩]
    let second : List Event := [⟨.recordPart { isFinal := true }, 1⟩, ⟨.recordPart {}, 1⟩,
      ⟨.call (1, 0) (.report .failed 6), 2⟩, ⟨.call (0, 0) (.report .success 0), 2⟩,
      ⟨.call (1, 1) (.report .failed 5), 9⟩, ⟨.call (0, 0) .start, 9⟩]
    job.Begins orders {} ∧ twin.Begins orders {} ∧
      job.answersTo (some (0, 0)) first = twin.answersTo (some (0, 0)) second ∧
      ∃ one other, (job.run first).tally.snapshot default = .ok one ∧
        (twin.run second).tally.snapshot default = .ok other ∧
        one.failed = other.failed ∧ one.failures.Perm other.failures := by
  intro orders place inMemory job twin first second
  have valid : orders[0].Valid := Plan.Order.validate_eq_ok_iff.1 rfl
  have fits : orders[1].Valid := Plan.Order.validate_eq_ok_iff.1 rfl
  have free : ({} : Volume).filePlace { parts := ["plan"] } = .ok place := rfl
  have made : Handle.createInMemory orders[0] = .ok _ := Handle.createInMemory_eq valid
  have madeToo : Handle.createInMemory orders[1] = .ok _ := Handle.createInMemory_eq fits
  have created := Handle.create_eq fits free
  have begins : job.Begins orders {} := ⟨.inMemory (.created (.none {}) created nofun) made, rfl⟩
  have again : twin.Begins orders {} := ⟨.inMemory (.inMemory (.none {}) madeToo) made, rfl⟩
  have rearranged : Rearranged first second := by
    refine ⟨fun key => ?_, .swap _ _ _⟩
    by_cases success : (0, 0) = key
    · subst success
      rfl
    · by_cases failure : (1, 0) = key
      · subst failure
        rfl
      · simp only [first, second, callsOf, List.filterMap_cons, Action.call?, if_neg success,
          if_neg failure]
  have runs : ∀ event ∈ first ++ second, event.now ≠ 0 := by decide
  obtain ⟨answers, _, snapshots⟩ := run_rearranged begins again rearranged runs
  obtain ⟨one, other, taken, takenToo, same, failures, _⟩ := snapshots default default
  exact ⟨begins, again, answers _, one, other, taken, takenToo, by rw [same], failures⟩

end TransferLedger.Job
