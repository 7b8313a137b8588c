import TransferLedger.Proofs.Lifecycle
import TransferLedger.Proofs.Totals

/-! A job of several parts, each with its own plan, that share one tally.

What is done with a transfer depends on the phase of that transfer alone and changes no
other: plans in different files have no bytes in common, and neither have the words of
different transfers.
-/

namespace TransferLedger

open Plan (Order Region Handle Words)
open Plan.Region (TransferWords)
open Volume (Path Place Node)

structure Job where
  volume : Volume
  /-- The plans of the parts. -/
  handles : List Handle
  tally : Tally

namespace Job

/-- A transfer, given by its part and its index there. -/
abbrev Key := Nat × UInt32

inductive Action where
  | call (key : Key) (call : Call)
  | recordPart (counts : PartCounts)

/-- An action, and what the clock shows when it is done. -/
structure Event where
  action : Action
  now : UInt64

/-- Calls a transfer.  There is no answer for a part that does not exist. -/
def call (job : Job) (key : Key) (call : Call) (now : UInt64) : Option Answer × Job :=
  match job.handles[key.1]? with
  | none => (none, job)
  | some handle =>
      let session : Session := { volume := job.volume, handle, tally := job.tally }
      let (answer, after) := session.call key.2 call now
      (some (answer.map some), {
        volume := after.volume
        handles := job.handles.set key.1 after.handle
        tally := after.tally })

def perform (job : Job) (event : Event) : Option Answer × Job :=
  match event.action with
  | .call key call => job.call key call event.now
  | .recordPart counts =>
      match job.tally.recordPart counts with
      | .ok tally => (some (.ok none), { job with tally })
      | .error fault => (some (.error (.tally fault)), job)

def run (job : Job) (events : List Event) : Job :=
  events.foldl (fun job event => (job.perform event).2) job

/-! ## Phases -/

/-- How far a transfer has come. -/
structure Phase where
  status : TransferStatus := .notStarted
  /-- Whether it has a completion time. -/
  ended : Bool := false

/-- A call takes the transfer from running to a terminal status. -/
def Phase.Ends (phase : Phase) (call : Call) : Prop :=
  phase.status.isTerminal = false ∧ call.status.isTerminal = true

instance (phase : Phase) (call : Call) : Decidable (phase.Ends call) :=
  inferInstanceAs (Decidable (_ ∧ _))

def Phase.call (phase : Phase) (call : Call) : Phase where
  status := phase.status.merge call.status
  ended := phase.ended || decide (phase.Ends call)

theorem status_call (phase : Phase) (call : Call) :
    (phase.call call).status = phase.status.merge call.status :=
  rfl

/-- The phases after one transfer was called. -/
def callAt {α : Type} [DecidableEq α] (phases : α → Phase) (one : α) (call : Call) (other : α) :
    Phase :=
  if other = one then (phases one).call call else phases other

theorem callAt_self {α : Type} [DecidableEq α] (phases : α → Phase) (one : α) (call : Call) :
    callAt phases one call one = (phases one).call call :=
  if_pos rfl

theorem callAt_of_ne {α : Type} [DecidableEq α] {one other : α} (different : other ≠ one)
    (phases : α → Phase) (call : Call) : callAt phases one call other = phases other :=
  if_neg different

/-- What a call is answered when the transfer is in the phase, if there is one. -/
def answerFor (order : Order) (index : UInt32) (phase : Phase) (call : Call) :
    Except TransferFault TransferStatus :=
  if index.toNat < order.items.length then .ok (phase.status.merge call.status)
  else .error (.plan (.indexOutOfRange index (UInt32.ofNat order.items.length)))

/-- What the tally counts of a call. -/
def detailsFor (order : Order) (index : UInt32) (phase : Phase) (call : Call) :
    List Summary.Detail :=
  match order.items[index.toNat]? with
  | some item =>
      if phase.Ends call then [Ledger.detailOf item call.status call.code] else []
  | none => []

/-- The region keeps the order and has every transfer in its phase. -/
structure InPhase (order : Order) (phases : UInt32 → Phase) (region : Region) : Prop where
  kept : region.Keeps order
  status : ∀ index, index.toNat < order.items.length →
    region.transferStatus index = .ok (phases index).status
  ended : ∀ index, index.toNat < order.items.length →
    ((region.words index).time = 0 ↔ (phases index).ended = false)

variable {order : Order} {phases twin : UInt32 → Phase} {ledger : Ledger} {index : UInt32}
variable {item : Order.Item} {summary : Summary} {now : UInt64} {words : Words} {phase : Phase}
variable {region : Region}

theorem inPhase_ofOrder (valid : order.Valid) :
    InPhase order (fun _ => {}) (Region.ofOrder order) where
  kept := Region.keeps_ofOrder valid
  status _ known := Region.transferStatus_ofOrder valid (List.getElem?_eq_getElem known)
  ended _ known :=
    iff_of_true (Region.completionTime_ofOrder valid (List.getElem?_eq_getElem known)) rfl

/-- A transfer gets a completion time when it has none and a call ends it. -/
theorem time_act_call (status : words.status? = some phase.status)
    (ended : words.time = 0 ↔ phase.ended = false) (call : Call) (runs : now ≠ 0) :
    (words.act (.call call now)).time = 0 ↔ (phase.call call).ended = false := by
  have blank : (words.act (.call call now)).time = 0 ↔ words.time = 0 ∧ ¬ phase.Ends call := by
    cases call with
    | start =>
        have stays : ¬ phase.Ends .start := by nofun
        by_cases none : words.time = 0 <;> simp [Words.act, Deed.offered?, none, stays]
    | report reported code =>
        have enters : (words.transition reported).entersTerminal = true ↔
            phase.Ends (.report reported code) := by
          rw [Words.entersTerminal_iff, status]
          simp [Phase.Ends, Call.status]
        by_cases ends : phase.Ends (.report reported code)
        · by_cases none : words.time = 0 <;>
            simp [Words.act, Deed.offered?, enters, ends, none, runs]
        · by_cases none : words.time = 0 <;>
            simp [Words.act, Deed.offered?, enters, ends, none]
  rw [blank, ended, Phase.call, Bool.or_eq_false_iff, decide_eq_false_iff_not]

theorem InPhase.call_known (inPhase : InPhase order phases ledger.region) (valid : order.Valid)
    (found : order.items[index.toNat]? = some item)
    (installed : ledger.tally = .ofSummary summary) (call : Call) (runs : now ≠ 0) :
    ∃ region, ledger.call index call now =
        (.ok ((phases index).status.merge call.status), {
          region
          tally := .ofSummary (
            if (phases index).Ends call then
              summary.addDetail (Ledger.detailOf item call.status call.code)
            else summary) }) ∧
      InPhase order (callAt phases index call) region := by
  obtain ⟨known, _⟩ := List.getElem?_eq_some_iff.1 found
  have held := inPhase.status index known
  have whole := inPhase.kept.whole valid
  have counted := inPhase.kept.known found
  obtain ⟨region, called, merged, others⟩ :=
    Ledger.call_eq inPhase.kept valid found held installed call now
  have kept := Ledger.keeps_call inPhase.kept valid index call now
  have same := Ledger.sameBut_call whole index call now
  have written := Ledger.words_act (inPhase.kept.ofBytes_eq valid) counted (.call call now)
  rw [Ledger.act, called] at written
  rw [called] at kept same
  refine ⟨region, called, kept, fun other inside => ?_, fun other inside => ?_⟩
  · by_cases here : other = index
    · subst here
      rw [callAt_self, status_call, merged]
    · rw [callAt_of_ne here, others other here]
      exact inPhase.status other inside
  · by_cases here : other = index
    · subst here
      have status : (ledger.region.words other).status? = some (phases other).status := by
        rw [Region.status?_words, held, Except.toOption]
      rw [callAt_self, written]
      exact time_act_call status (inPhase.ended other inside) call runs
    · have still : region.words other = ledger.region.words other :=
        same.words_eq fun position at_ touched =>
          Region.transferWords_apart (Ne.symm here) at_ touched.2
      rw [callAt_of_ne here, still]
      exact inPhase.ended other inside

theorem InPhase.call (inPhase : InPhase order phases ledger.region) (valid : order.Valid)
    (installed : ledger.tally = .ofSummary summary) (index : UInt32) (call : Call)
    (runs : now ≠ 0) :
    ∃ region, ledger.call index call now =
        (answerFor order index (phases index) call, {
          region
          tally := .ofSummary (
            summary.withDetails (detailsFor order index (phases index) call)) }) ∧
      InPhase order (callAt phases index call) region := by
  cases found : order.items[index.toNat]? with
  | some item =>
      obtain ⟨known, _⟩ := List.getElem?_eq_some_iff.1 found
      obtain ⟨region, called, after⟩ := inPhase.call_known valid found installed call runs
      refine ⟨region, ?_, after⟩
      rw [called, answerFor, if_pos known, detailsFor, found]
      dsimp only
      split
      · rw [← Summary.foldl_addDetail]
        rfl
      · rw [Summary.withDetails_nil]
  | none =>
      have behind := List.getElem?_eq_none_iff.1 found
      have unknown : ¬ index.toNat < order.items.length := Nat.not_lt.2 behind
      have away {other : UInt32} (inside : other.toNat < order.items.length) : other ≠ index := by
        rintro rfl
        exact unknown inside
      refine ⟨ledger.region, ?_, inPhase.kept, fun other inside => ?_, fun other inside => ?_⟩
      · simp only [Ledger.call, Ledger.takeUp_unknown inPhase.kept behind, answerFor,
          if_neg unknown, detailsFor, found, Summary.withDetails_nil, ← installed]
      · rw [callAt_of_ne (away inside)]
        exact inPhase.status other inside
      · rw [callAt_of_ne (away inside)]
        exact inPhase.ended other inside

/-! ## Plans in places of their own -/

/-- The place of the file that the handle is a window on. -/
def place? (handle : Handle) : Option Place :=
  match handle.backing with
  | .memory _ => none
  | .file place _ => some place

/-- Each plan was made for its order, in memory or in a file that is not that of another. -/
inductive Laid : List Order → List Handle → Volume → Prop where
  | none (volume : Volume) : Laid [] [] volume
  | inMemory {orders : List Order} {handles : List Handle} {volume : Volume} {order : Order}
      {handle : Handle} (laid : Laid orders handles volume)
      (done : Handle.createInMemory order = .ok handle) :
      Laid (order :: orders) (handle :: handles) volume
  | created {orders : List Order} {handles : List Handle} {volume written : Volume}
      {path : Path} {order : Order} {handle : Handle} (laid : Laid orders handles volume)
      (done : Handle.create volume path order = (.ok handle, written))
      (apart : ∀ other ∈ handles, place? other ≠ place? handle) :
      Laid (order :: orders) (handle :: handles) written

variable {handle other : Handle} {volume : Volume} {place : Place}

/-- What stands at one place does not depend on what is put at another. -/
theorem shows_put (shown : handle.Shows volume region) (away : place? handle ≠ some place)
    (node : Node) : handle.Shows (volume.put place node) region where
  region := by
    have same : handle.bytes (volume.put place node) = handle.bytes volume := by
      rw [Handle.bytes, Handle.bytes]
      cases backing : handle.backing with
      | memory bytes => rfl
      | file there length =>
          have different : there ≠ place := by
            rintro rfl
            exact away (by rw [place?, backing])
          dsimp only
          rw [Volume.fileAt, Volume.fileAt, Volume.node?_put_of_ne different]
    rw [← shown.region, Handle.region, Handle.region, same]
  named := shown.named

theorem place?_store (handle : Handle) (volume : Volume) (bytes : ByteArray) :
    place? (handle.store volume bytes).1 = place? handle := by
  rw [Handle.store]
  split
  · rename_i backing
    rw [place?, place?, backing]
  · rfl

/-- What is done through one handle is not seen through one on another file. -/
theorem shows_store (shown : other.Shows volume region)
    (apart : ∀ place, place? handle = some place → place? other ≠ some place)
    (bytes : ByteArray) : other.Shows (handle.store volume bytes).2 region := by
  rw [Handle.store]
  split
  · exact shown
  · rename_i place length backing
    exact shows_put shown (apart place (by rw [place?, backing])) _

theorem place?_of_follows {session next : Session} {after : Ledger}
    (follows : session.Follows ledger after next) : place? next.handle = place? session.handle := by
  cases follows with
  | stored => exact place?_store _ _ _
  | untouched same => rfl

theorem shows_of_follows {session next : Session} {after : Ledger}
    (follows : session.Follows ledger after next) (shown : other.Shows session.volume region)
    (apart : ∀ place, place? session.handle = some place → place? other ≠ some place) :
    other.Shows next.volume region := by
  cases follows with
  | stored => exact shows_store shown apart _
  | untouched same => exact shown

def placeOf (handles : List Handle) (part : Nat) : Option Place :=
  handles[part]?.bind place?

/-- No two of the handles are windows on one file. -/
def Apart (handles : List Handle) : Prop :=
  ∀ one another place, placeOf handles one = some place → placeOf handles another = some place →
    one = another

variable {handles : List Handle} {orders : List Order} {part : Nat}

theorem placeOf_set {next : Handle} (found : handles[part]? = some handle)
    (same : place? next = place? handle) : placeOf (handles.set part next) = placeOf handles := by
  obtain ⟨inside, rfl⟩ := List.getElem?_eq_some_iff.1 found
  funext another
  by_cases here : part = another
  · subst here
    simp only [placeOf, List.getElem?_set_self inside, found, Option.bind_some, same]
  · simp only [placeOf, List.getElem?_set_ne here]

theorem apart_cons (apart : Apart handles)
    (new : ∀ place, place? handle = some place → ∀ other ∈ handles, place? other ≠ some place) :
    Apart (handle :: handles) := by
  have clear {part : Nat} {place : Place} (first : placeOf (handle :: handles) 0 = some place)
      (behind : placeOf (handle :: handles) (part + 1) = some place) : False := by
    obtain ⟨other, found, same⟩ := Option.bind_eq_some_iff.1 behind
    exact new place first other (List.mem_of_getElem? found) same
  intro one another place first second
  cases one with
  | zero =>
      cases another with
      | zero => rfl
      | succ another => exact (clear first second).elim
  | succ one =>
      cases another with
      | zero => exact (clear second first).elim
      | succ another => exact congrArg (· + 1) (apart one another place first second)

/-- The plans show what the orders laid out. -/
structure Fresh (orders : List Order) (handles : List Handle) (volume : Volume) : Prop where
  valid : ∀ order ∈ orders, order.Valid
  length : handles.length = orders.length
  plans : ∀ (part : Nat) (order : Order), orders[part]? = some order → ∃ handle : Handle,
    handles[part]? = some handle ∧ handle.Shows volume (Region.ofOrder order)
  apart : Apart handles

theorem Fresh.cons (fresh : Fresh orders handles volume) (valid : order.Valid)
    (shown : handle.Shows volume (Region.ofOrder order))
    (new : ∀ place, place? handle = some place → ∀ other ∈ handles, place? other ≠ some place) :
    Fresh (order :: orders) (handle :: handles) volume where
  valid := List.forall_mem_cons.2 ⟨valid, fresh.valid⟩
  length := by rw [List.length_cons, List.length_cons, fresh.length]
  plans part found here := by
    cases part with
    | zero =>
        rw [List.getElem?_cons_zero, Option.some.injEq] at here
        subst here
        exact ⟨handle, List.getElem?_cons_zero, shown⟩
    | succ part => exact fresh.plans part found here
  apart := apart_cons fresh.apart new

theorem Fresh.put (fresh : Fresh orders handles volume)
    (away : ∀ other ∈ handles, place? other ≠ some place) (node : Node) :
    Fresh orders handles (volume.put place node) where
  valid := fresh.valid
  length := fresh.length
  plans part order here := by
    obtain ⟨handle, found, shown⟩ := fresh.plans part order here
    exact ⟨handle, found, shows_put shown (away handle (List.mem_of_getElem? found)) node⟩
  apart := fresh.apart

theorem Laid.fresh (laid : Laid orders handles volume) : Fresh orders handles volume := by
  induction laid with
  | none volume =>
      constructor
      · intro order member
        cases member
      · rfl
      · intro part order found
        cases found
      · intro one another place found
        cases found
  | inMemory laid done ih =>
      have valid := Handle.valid_of_createInMemory done
      rw [Handle.createInMemory_eq valid] at done
      cases done
      exact ih.cons valid (Handle.Made.shows (.inMemory (Handle.createInMemory_eq valid)) valid)
        (by nofun)
  | created laid done apart ih =>
      have valid := Handle.valid_of_create done
      have shown := (Handle.Made.created done).shows valid
      obtain ⟨place, found⟩ := Handle.place_of_create valid done
      rw [Handle.create_eq valid found] at done
      cases done
      refine (ih.put apart _).cons valid shown fun there same => ?_
      rw [← same]
      exact apart

/-- Every plan shows a region that is in the phases of its part. -/
structure Stands (orders : List Order) (phases : Key → Phase) (summary : Summary) (job : Job) :
    Prop where
  valid : ∀ order ∈ orders, order.Valid
  length : job.handles.length = orders.length
  plans : ∀ (part : Nat) (order : Order), orders[part]? = some order →
    ∃ (handle : Handle) (region : Region), job.handles[part]? = some handle ∧
      handle.Shows job.volume region ∧ InPhase order (fun index => phases (part, index)) region
  apart : Apart job.handles
  tally : job.tally = .ofSummary summary

/-- The plans were made for the orders, nothing was done with them, and a summary is
installed. -/
structure Begins (orders : List Order) (seed : Summary) (job : Job) : Prop where
  laid : Laid orders job.handles job.volume
  installed : job.tally = .ofSummary seed

theorem Begins.stands {job : Job} {seed : Summary} (begins : job.Begins orders seed) :
    job.Stands orders (fun _ => {}) seed where
  valid := begins.laid.fresh.valid
  length := begins.laid.fresh.length
  plans part order here := by
    obtain ⟨handle, found, shown⟩ := begins.laid.fresh.plans part order here
    have valid := begins.laid.fresh.valid order (List.mem_of_getElem? here)
    exact ⟨handle, Region.ofOrder order, found, shown, inPhase_ofOrder valid⟩
  apart := begins.laid.fresh.apart
  tally := begins.installed

/-! ## Steps -/

/-- What a call is answered when its transfer is in the phase, if there is such a part. -/
def answer? (orders : List Order) (key : Key) (phase : Phase) (call : Call) : Option Answer :=
  orders[key.1]?.map fun order => (answerFor order key.2 phase call).map some

/-- What the tally counts of a call for a transfer that is in the phase. -/
def details (orders : List Order) (key : Key) (phase : Phase) (call : Call) :
    List Summary.Detail :=
  match orders[key.1]? with
  | some order => detailsFor order key.2 phase call
  | none => []

variable {job : Job} {states : Key → Phase} {seed : Summary}

theorem callAt_part (states : Key → Phase) (part : Nat) (index : UInt32) (call : Call) :
    (fun other => callAt states (part, index) call (part, other)) =
      callAt (fun other => states (part, other)) index call := by
  funext other
  by_cases here : other = index
  · subst here
    rw [callAt_self, callAt_self]
  · rw [callAt_of_ne here, callAt_of_ne fun same => here (congrArg Prod.snd same)]

theorem callAt_part_of_ne {another : Nat} (different : another ≠ part) (states : Key → Phase)
    (index : UInt32) (call : Call) :
    (fun other => callAt states (part, index) call (another, other)) =
      fun other => states (another, other) := by
  funext other
  rw [callAt_of_ne fun same => different (congrArg Prod.fst same)]

theorem Stands.call_absent (stands : job.Stands orders states summary) (key : Key)
    (absent : orders[key.1]? = none) (call : Call) (now : UInt64) :
    job.call key call now = (none, job) ∧ job.Stands orders (callAt states key call) summary := by
  have missing : job.handles[key.1]? = none := by
    rw [List.getElem?_eq_none_iff] at absent ⊢
    rw [stands.length]
    exact absent
  refine ⟨by simp only [Job.call, missing], stands.valid, stands.length, ?_, stands.apart,
    stands.tally⟩
  intro part order here
  have different : part ≠ key.1 := by
    rintro rfl
    rw [absent] at here
    cases here
  rw [callAt_part_of_ne different]
  exact stands.plans part order here

/-- The job after the session of one handle was led on. -/
theorem Stands.follow {order : Order} {next : Session} {after : Ledger} {more : Summary}
    {call : Call} (stands : job.Stands orders states summary) (here : orders[part]? = some order)
    (found : job.handles[part]? = some handle)
    (follows : Session.Follows { volume := job.volume, handle, tally := job.tally }
      { region, tally := job.tally } after next)
    (shown : next.handle.Shows next.volume after.region)
    (phase : InPhase order (callAt (fun other => states (part, other)) index call) after.region)
    (tally : next.tally = .ofSummary more) :
    Stands orders (callAt states (part, index) call) more {
      volume := next.volume
      handles := job.handles.set part next.handle
      tally := next.tally } := by
  have inside := (List.getElem?_eq_some_iff.1 found).1
  have length : (job.handles.set part next.handle).length = orders.length := by
    rw [List.length_set, stands.length]
  have apart : Apart (job.handles.set part next.handle) := by
    rw [Apart, placeOf_set found (place?_of_follows follows)]
    exact stands.apart
  refine ⟨stands.valid, length, fun another its there => ?_, apart, tally⟩
  by_cases same : another = part
  · subst same
    rw [here, Option.some.injEq] at there
    subst there
    rw [callAt_part]
    exact ⟨next.handle, after.region, List.getElem?_set_self inside, shown, phase⟩
  · -- Another part has its plan in another file, or in memory of its own.
    obtain ⟨other, shows, taken, seen, stays⟩ := stands.plans another its there
    rw [callAt_part_of_ne same]
    refine ⟨other, shows, (List.getElem?_set_ne (Ne.symm same)).trans taken, ?_, stays⟩
    refine shows_of_follows follows seen fun place held its => same ?_
    refine stands.apart another part place ?_ ?_
    · rw [placeOf, taken, Option.bind_some, its]
    · rw [placeOf, found, Option.bind_some]
      exact held

/-- A call finds its transfer in a phase and takes it to the next one. -/
theorem Stands.call (stands : job.Stands orders states summary) (key : Key) (call : Call)
    (runs : now ≠ 0) :
    (job.call key call now).1 = answer? orders key (states key) call ∧
      (job.call key call now).2.Stands orders (callAt states key call)
        (summary.withDetails (details orders key (states key) call)) := by
  obtain ⟨part, index⟩ := key
  cases here : orders[part]? with
  | none =>
      obtain ⟨same, stood⟩ := stands.call_absent (part, index) here call now
      rw [same, answer?, details, here, Summary.withDetails_nil]
      exact ⟨rfl, stood⟩
  | some order =>
      have valid := stands.valid order (List.mem_of_getElem? here)
      obtain ⟨handle, region, found, shown, inPhase⟩ := stands.plans part order here
      let session : Session := { volume := job.volume, handle, tally := job.tally }
      let ledger : Ledger := { region, tally := job.tally }
      have stood : session.Stands order ledger := ⟨shown, inPhase.kept, rfl⟩
      have phase : InPhase order (fun other => states (part, other)) ledger.region := inPhase
      obtain ⟨after, called, next⟩ := phase.call valid stands.tally index call runs
      obtain ⟨answer, shows⟩ := stood.call valid index call now
      have follows := (Session.call_follows stood.ledger_eq index call now).2
      rw [called] at answer shows follows
      have made : job.call (part, index) call now =
          (some ((session.call index call now).1.map some), {
            volume := (session.call index call now).2.volume
            handles := job.handles.set part (session.call index call now).2.handle
            tally := (session.call index call now).2.tally }) := by
        simp only [Job.call, found]
        rfl
      rw [made, answer?, details, here, answer]
      exact ⟨rfl, stands.follow here found follows shows.shows next shows.tally⟩

theorem Stands.recordPart (stands : job.Stands orders states summary) (counts : PartCounts)
    (now : UInt64) :
    job.perform { action := .recordPart counts, now } =
        (some (.ok none), { job with tally := .ofSummary (summary.addPart counts) }) ∧
      Stands orders states (summary.addPart counts)
        { job with tally := .ofSummary (summary.addPart counts) } := by
  constructor
  · simp only [Job.perform, stands.tally]
    rfl
  · exact ⟨stands.valid, stands.length, stands.plans, stands.apart, rfl⟩

end Job

end TransferLedger
