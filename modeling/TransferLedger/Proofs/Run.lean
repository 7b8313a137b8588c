import TransferLedger.Proofs.Handle
import TransferLedger.Proofs.Ledger
import TransferLedger.Session

/-! Runs of a session, one event after another.

A session whose handle shows the region of an order does what its ledger does,
whatever keeps the bytes of the plan.  So a run is followed on ledgers, and only
the first and the last state of it need to be looked at through the handle.
-/

namespace TransferLedger

open Plan (Order Region Handle)
open Plan.Region (TransferWords Word)

inductive Call where
  | start
  | report (status : TransferStatus) (code : Int32)
  deriving DecidableEq

def Call.status : Call → TransferStatus
  | start => .started
  | report status _ => status

def Call.code : Call → Int32
  | start => 0
  | report _ code => code

inductive Step where
  | call (index : UInt32) (call : Call)
  | recordPart (counts : PartCounts)
  | setJobStatus (status : JobStatus)
  deriving DecidableEq

/-- A step, and what the clock shows when it is done. -/
structure Event where
  step : Step
  now : UInt64

/-- What the caller of a step is told: the status in effect after a call. -/
abbrev Answer := Except TransferFault (Option TransferStatus)

namespace Session

def call (session : Session) (index : UInt32) (call : Call) (now : UInt64) :
    Except TransferFault TransferStatus × Session :=
  match session.takeUp index with
  | .error fault => (.error fault, session)
  | .ok assignment =>
      match call with
      | .start => session.start assignment
      | .report status code => session.report assignment now status code

def perform (session : Session) (event : Event) : Answer × Session :=
  match event.step with
  | .call index call =>
      let (answer, after) := session.call index call event.now
      (answer.map some, after)
  | .recordPart counts =>
      let (answer, after) := session.recordPart counts
      (answer.map fun _ => none, after)
  | .setJobStatus status =>
      let (answer, after) := session.setJobStatus status
      (answer.map fun _ => none, after)

/-- The answers to some events in turn, and the session after them. -/
def run (session : Session) : List Event → List Answer × Session
  | [] => ([], session)
  | event :: rest =>
      let (answer, after) := session.perform event
      let (answers, last) := after.run rest
      (answer :: answers, last)

end Session

namespace Ledger

def call (ledger : Ledger) (index : UInt32) (call : Call) (now : UInt64) :
    Except TransferFault TransferStatus × Ledger :=
  match ledger.takeUp index with
  | .error fault => (.error fault, ledger)
  | .ok assignment =>
      match call with
      | .start =>
          let (status, after) := ledger.start assignment
          (.ok status, after)
      | .report status code => ledger.report assignment now status code

def recordPart (ledger : Ledger) (counts : PartCounts) : Except TransferFault Unit × Ledger :=
  match ledger.tally.recordPart counts with
  | .ok tally => (.ok (), { ledger with tally })
  | .error fault => (.error (.tally fault), ledger)

def setJobStatus (ledger : Ledger) (status : JobStatus) : Except TransferFault Unit × Ledger :=
  match ledger.region.setJobStatus status with
  | .ok region => (.ok (), { ledger with region })
  | .error fault => (.error (.plan fault), ledger)

def perform (ledger : Ledger) (event : Event) : Answer × Ledger :=
  match event.step with
  | .call index call =>
      let (answer, after) := ledger.call index call event.now
      (answer.map some, after)
  | .recordPart counts =>
      let (answer, after) := ledger.recordPart counts
      (answer.map fun _ => none, after)
  | .setJobStatus status =>
      let (answer, after) := ledger.setJobStatus status
      (answer.map fun _ => none, after)

def run (ledger : Ledger) : List Event → List Answer × Ledger
  | [] => ([], ledger)
  | event :: rest =>
      let (answer, after) := ledger.perform event
      let (answers, last) := after.run rest
      (answer :: answers, last)

variable {ledger : Ledger} {order : Order} {index : UInt32} {item : Order.Item}
variable {summary : Summary} {current : TransferStatus}

/-- A call writes to the words of its transfer, if there is one. -/
theorem sameBut_call (whole : ledger.region.Whole) (index : UInt32) (call : Call) (now : UInt64) :
    ledger.region.SameBut
      (fun position => index < ledger.region.count ∧ TransferWords index position)
      (ledger.call index call now).2.region := by
  cases taken : ledger.takeUp index with
  | error fault =>
      simp only [Ledger.call, taken]
      exact .refl _ _
  | ok assignment =>
      obtain ⟨known, rfl⟩ := Region.index_of_record whole (record_of_takeUp taken)
      have held : ledger.region.Holds assignment.index := whole.room known
      cases call with
      | start =>
          simp only [Ledger.call, taken]
          exact (Region.sameBut_updateStatus held _).mono fun _ inside => ⟨known, inside⟩
      | report status code =>
          simp only [Ledger.call, taken]
          exact (sameBut_report held now status code).mono fun _ inside => ⟨known, inside⟩

theorem keeps_call (kept : ledger.region.Keeps order) (valid : order.Valid) (index : UInt32)
    (call : Call) (now : UInt64) : (ledger.call index call now).2.region.Keeps order := by
  have words : ledger.region.SameBut (Word ledger.region.count) _ :=
    (sameBut_call (kept.whole valid) index call now).mono fun _ inside => Or.inr ⟨index, inside⟩
  exact words.keeps kept

theorem keeps_perform (kept : ledger.region.Keeps order) (valid : order.Valid) (event : Event) :
    (ledger.perform event).2.region.Keeps order := by
  obtain ⟨step, now⟩ := event
  cases step with
  | call index call => exact keeps_call kept valid index call now
  | recordPart counts =>
      simp only [perform, recordPart]
      split <;> exact kept
  | setJobStatus status =>
      simp only [perform, setJobStatus]
      split
      · rename_i done
        exact kept.setJobStatus valid done
      · exact kept

theorem start_eq (assignment : Assignment)
    (held : ledger.region.transferStatus assignment.index = .ok current) :
    ledger.start assignment =
      (current.merge .started,
        { ledger with
          region := ledger.region.putStatus assignment.index (current.merge .started) }) := by
  simp only [start, Region.updateStatus_eq held]

theorem call_passes (kept : ledger.region.Keeps order) (valid : order.Valid)
    (found : order.items[index.toNat]? = some item)
    (held : ledger.region.transferStatus index = .ok current) (call : Call) (now : UInt64)
    (passed : current.isTerminal = true ∨ call.status.isTerminal = false) :
    ledger.call index call now =
      (.ok (current.merge call.status),
        { ledger with region := ledger.region.putStatus index (current.merge call.status) }) := by
  have taken := takeUp_eq kept valid found
  cases call with
  | start =>
      have started := start_eq (assignmentFor order index item) held
      simp only [Ledger.call, taken, started]
      rfl
  | report status code =>
      simp only [Ledger.call, taken]
      exact report_uncounted (assignmentFor order index item) held passed

theorem call_ends (kept : ledger.region.Keeps order) (valid : order.Valid)
    (found : order.items[index.toNat]? = some item)
    (held : ledger.region.transferStatus index = .ok current)
    (installed : ledger.tally = .ofSummary summary) (call : Call) (now : UInt64)
    (runs : current.isTerminal = false) (ends : call.status.isTerminal = true) :
    ledger.call index call now =
      (.ok call.status,
        { region := ((ledger.region.putStatus index call.status).stampCompletion index now).2
          tally := .ofSummary (summary.addDetail (detailOf item call.status call.code)) }) := by
  cases call with
  | start => cases ends
  | report status code =>
      simp only [Ledger.call, takeUp_eq kept valid found]
      exact report_counted kept valid found held runs ends installed

/-- A call merges its status into that of its transfer, and the tally counts it if that
ends the transfer. -/
theorem call_eq (kept : ledger.region.Keeps order) (valid : order.Valid)
    (found : order.items[index.toNat]? = some item)
    (held : ledger.region.transferStatus index = .ok current)
    (installed : ledger.tally = .ofSummary summary) (call : Call) (now : UInt64) :
    ∃ region, ledger.call index call now =
        (.ok (current.merge call.status),
          { region
            tally := .ofSummary (
              if current.isTerminal = false ∧ call.status.isTerminal = true then
                summary.addDetail (detailOf item call.status call.code)
              else summary) }) ∧
      region.transferStatus index = .ok (current.merge call.status) ∧
      ∀ other, other ≠ index →
        region.transferStatus other = ledger.region.transferStatus other := by
  have known := kept.known found
  have room := kept.holds valid known
  by_cases enters : current.isTerminal = false ∧ call.status.isTerminal = true
  · have updated := kept.putStatus valid known call.status
    have merged := TransferStatus.merge_of_running enters.1 call.status
    have still : index < (ledger.region.putStatus index call.status).count := known
    have stamped := Region.transferStatus_stampCompletion (updated.holds valid still) now
    refine ⟨((ledger.region.putStatus index call.status).stampCompletion index now).2, ?_, ?_, ?_⟩
    · rw [call_ends kept valid found held installed call now enters.1 enters.2, merged,
        if_pos enters]
    · rw [stamped, merged]
      exact Region.transferStatus_putStatus_self room _
    · intro other different
      rw [stamped]
      exact Region.transferStatus_putStatus_of_ne room different _
  · have passed : current.isTerminal = true ∨ call.status.isTerminal = false := by
      cases ended : current.isTerminal <;> cases ends : call.status.isTerminal <;> simp_all
    refine ⟨ledger.region.putStatus index (current.merge call.status), ?_, ?_, ?_⟩
    · rw [call_passes kept valid found held call now passed, if_neg enters, installed]
    · exact Region.transferStatus_putStatus_self room _
    · intro other different
      exact Region.transferStatus_putStatus_of_ne room different _

end Ledger

namespace Session

variable {session : Session} {ledger after : Ledger} {order : Order} {index : UInt32}

theorem takeUp_of_ledger (taken : session.ledger = .ok ledger) (index : UInt32) :
    session.takeUp index = ledger.takeUp index := by
  rw [takeUp, taken, ok_bind]

theorem onLedger_of_ledger {α : Type} (taken : session.ledger = .ok ledger)
    (operation : Ledger → Except TransferFault α × Ledger) :
    session.onLedger operation = ((operation ledger).1, session.keep (operation ledger).2) := by
  rw [onLedger, taken]

/-- What a session becomes when its ledger becomes `after`.  Either the plan is stored anew,
or it was not touched and only the totals are taken over. -/
inductive Follows (session : Session) (ledger after : Ledger) : Session → Prop where
  | stored : Follows session ledger after (session.keep after)
  | untouched (same : after.region = ledger.region) :
      Follows session ledger after { session with tally := after.tally }

theorem ledger_eq_ok_iff :
    session.ledger = .ok ledger ↔
      session.handle.region session.volume = .ok ledger.region ∧ session.tally = ledger.tally := by
  rw [Session.ledger]
  cases session.handle.region session.volume with
  | error fault => simp
  | ok region =>
      simp only [mapError_ok, ok_bind, Except.ok.injEq]
      constructor
      · rintro rfl
        exact ⟨rfl, rfl⟩
      · rintro ⟨rfl, same⟩
        rw [same]

theorem follows_self (taken : session.ledger = .ok ledger) :
    session.Follows ledger ledger session := by
  have same : { session with tally := ledger.tally } = session := by
    rw [← (ledger_eq_ok_iff.1 taken).2]
  have follows : session.Follows ledger ledger { session with tally := ledger.tally } :=
    .untouched rfl
  rwa [same] at follows

theorem call_follows (taken : session.ledger = .ok ledger) (index : UInt32) (call : Call)
    (now : UInt64) :
    (session.call index call now).1 = (ledger.call index call now).1 ∧
      session.Follows ledger (ledger.call index call now).2 (session.call index call now).2 := by
  cases begun : ledger.takeUp index with
  | error fault =>
      simp only [Session.call, Ledger.call, takeUp_of_ledger taken, begun]
      exact ⟨trivial, follows_self taken⟩
  | ok assignment =>
      cases call with
      | start =>
          simp only [Session.call, Ledger.call, takeUp_of_ledger taken, begun, start,
            onLedger_of_ledger taken]
          exact ⟨trivial, .stored⟩
      | report status code =>
          simp only [Session.call, Ledger.call, takeUp_of_ledger taken, begun, report,
            onLedger_of_ledger taken]
          exact ⟨trivial, .stored⟩

/-- The session stands where a ledger of the order stands. -/
structure Stands (order : Order) (session : Session) (ledger : Ledger) : Prop where
  shows : session.handle.Shows session.volume ledger.region
  kept : ledger.region.Keeps order
  tally : session.tally = ledger.tally

theorem Stands.ledger_eq (stands : session.Stands order ledger) : session.ledger = .ok ledger :=
  ledger_eq_ok_iff.2 ⟨stands.shows.region, stands.tally⟩

theorem Stands.takeUp_eq (stands : session.Stands order ledger) (index : UInt32) :
    session.takeUp index = ledger.takeUp index :=
  takeUp_of_ledger stands.ledger_eq index

theorem count_eq_of_keeps {region other : Region} (kept : region.Keeps order)
    (same : other.Keeps order) : region.count = other.count :=
  UInt32.toNat_inj.1 (kept.count.trans same.count.symm)

theorem Stands.keep (stands : session.Stands order ledger) (kept : after.region.Keeps order) :
    (session.keep after).Stands order after where
  shows := stands.shows.store (count_eq_of_keeps kept stands.kept)
    (kept.size.trans stands.kept.size.symm)
  kept := kept
  tally := rfl

theorem Stands.follow {next : Session} (stands : session.Stands order ledger)
    (kept : after.region.Keeps order) (follows : session.Follows ledger after next) :
    next.Stands order after := by
  cases follows with
  | stored => exact stands.keep kept
  | untouched same =>
      have shows := stands.shows
      rw [← same] at shows
      exact ⟨shows, kept, rfl⟩

theorem Stands.call (stands : session.Stands order ledger) (valid : order.Valid) (index : UInt32)
    (call : Call) (now : UInt64) :
    (session.call index call now).1 = (ledger.call index call now).1 ∧
      (session.call index call now).2.Stands order (ledger.call index call now).2 := by
  obtain ⟨answer, follows⟩ := call_follows stands.ledger_eq index call now
  exact ⟨answer, stands.follow (Ledger.keeps_call stands.kept valid index call now) follows⟩

theorem setJobStatus_follows (taken : session.ledger = .ok ledger)
    (long : Plan.Layout.headerSize ≤ ledger.region.bytes.size) (status : JobStatus) :
    (session.setJobStatus status).1 = (ledger.setJobStatus status).1 ∧
      session.Follows ledger (ledger.setJobStatus status).2 (session.setJobStatus status).2 := by
  obtain ⟨shown, tally⟩ := ledger_eq_ok_iff.1 taken
  have done := Region.setJobStatus_eq long status
  simp only [Session.setJobStatus, Handle.setJobStatus, Handle.update,
    Handle.view_of_region shown, Ledger.setJobStatus, done, ok_bind, mapError_ok, tally]
  exact ⟨trivial, .stored⟩

theorem run_cons_snd (session : Session) (event : Event) (rest : List Event) :
    (session.run (event :: rest)).2 = ((session.perform event).2.run rest).2 :=
  rfl

theorem run_singleton_snd (session : Session) (event : Event) :
    (session.run [event]).2 = (session.perform event).2 :=
  rfl

/-- A session answers as its ledger does and becomes what its ledger becomes. -/
theorem Stands.perform_follows (stands : session.Stands order ledger) (valid : order.Valid)
    (event : Event) :
    (session.perform event).1 = (ledger.perform event).1 ∧
      session.Follows ledger (ledger.perform event).2 (session.perform event).2 := by
  obtain ⟨step, now⟩ := event
  cases step with
  | call index call =>
      obtain ⟨answer, follows⟩ := call_follows stands.ledger_eq index call now
      simp only [Session.perform, Ledger.perform, answer]
      exact ⟨trivial, follows⟩
  | recordPart counts =>
      cases recorded : ledger.tally.recordPart counts with
      | ok tally =>
          simp only [Session.perform, Ledger.perform, Session.recordPart, Ledger.recordPart,
            stands.tally, recorded]
          exact ⟨trivial, .untouched rfl⟩
      | error fault =>
          simp only [Session.perform, Ledger.perform, Session.recordPart, Ledger.recordPart,
            stands.tally, recorded]
          exact ⟨trivial, follows_self stands.ledger_eq⟩
  | setJobStatus status =>
      have long := stands.kept.long valid
      obtain ⟨answer, follows⟩ := setJobStatus_follows stands.ledger_eq long status
      simp only [Session.perform, Ledger.perform, answer]
      exact ⟨trivial, follows⟩

theorem Stands.perform (stands : session.Stands order ledger) (valid : order.Valid)
    (event : Event) :
    (session.perform event).1 = (ledger.perform event).1 ∧
      (session.perform event).2.Stands order (ledger.perform event).2 := by
  obtain ⟨answer, follows⟩ := stands.perform_follows valid event
  exact ⟨answer, stands.follow (Ledger.keeps_perform stands.kept valid event) follows⟩

theorem Stands.run (stands : session.Stands order ledger) (valid : order.Valid)
    (events : List Event) :
    (session.run events).1 = (ledger.run events).1 ∧
      (session.run events).2.Stands order (ledger.run events).2 := by
  induction events generalizing session ledger with
  | nil => exact ⟨rfl, stands⟩
  | cons event rest ih =>
      obtain ⟨answer, stood⟩ := stands.perform valid event
      obtain ⟨answers, last⟩ := ih stood
      simp only [Session.run, Ledger.run, answer, answers]
      exact ⟨trivial, last⟩

/-- The session has a plan that was just made for the order, and a summary installed. -/
structure Begins (order : Order) (seed : Summary) (session : Session) : Prop where
  made : Handle.Made order session.volume session.handle
  installed : session.tally = .ofSummary seed

variable {seed : Summary}

theorem Begins.stands (begins : session.Begins order seed) (valid : order.Valid) :
    session.Stands order { region := Region.ofOrder order, tally := .ofSummary seed } where
  shows := begins.made.shows valid
  kept := Region.keeps_ofOrder valid
  tally := begins.installed

/-- An assignment that was taken up at the start is as good as one that is taken up later. -/
theorem takeUp_run (begins : session.Begins order seed) (valid : order.Valid)
    (events : List Event) (index : UInt32) :
    (session.run events).2.takeUp index = session.takeUp index := by
  have stands := begins.stands valid
  have stood := (stands.run valid events).2
  rw [stood.takeUp_eq, stands.takeUp_eq]
  exact Ledger.takeUp_congr stood.kept stands.kept valid index

end Session

end TransferLedger
