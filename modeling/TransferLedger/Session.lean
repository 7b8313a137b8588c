import TransferLedger.Plan.Handle
import TransferLedger.Roster
import TransferLedger.Summary.Archive

/-! A job part being run: its plan held open, the tally of its job and the files
that both are kept in.

Everything that a run has to remember stands in those files once the totals are
saved, so a run can be cut anywhere and taken up again from them.
-/

namespace TransferLedger

structure Session where
  volume : Volume := {}
  handle : Plan.Handle
  tally : Tally := {}
  tuning : Tuning := {}

namespace Session

def ledger (session : Session) : Except TransferFault Ledger := do
  let region ← (session.handle.region session.volume).mapError TransferFault.plan
  .ok { region, tally := session.tally }

/-- Puts an updated ledger in the place of the old one. -/
def keep (session : Session) (ledger : Ledger) : Session :=
  let (handle, volume) := session.handle.store session.volume ledger.region.bytes
  { session with handle, volume, tally := ledger.tally }

/-- Runs an operation on the ledger.  It fails without effect if the plan is
released. -/
def onLedger {α : Type} (session : Session)
    (operation : Ledger → Except TransferFault α × Ledger) : Except TransferFault α × Session :=
  match session.ledger with
  | .error fault => (.error fault, session)
  | .ok ledger =>
      let (result, after) := operation ledger
      (result, session.keep after)

def takeUp (session : Session) (index : UInt32) : Except TransferFault Assignment := do
  (← session.ledger).takeUp index

def strings (session : Session) (assignment : Assignment) :
    Except TransferFault (String × String) := do
  (← session.ledger).strings assignment

def start (session : Session) (assignment : Assignment) :
    Except TransferFault TransferStatus × Session :=
  session.onLedger fun ledger =>
    let (status, after) := ledger.start assignment
    (.ok status, after)

def report (session : Session) (assignment : Assignment) (now : UInt64) (status : TransferStatus)
    (code : Int32) : Except TransferFault TransferStatus × Session :=
  session.onLedger fun ledger => ledger.report assignment now status code

def recordPart (session : Session) (counts : PartCounts) :
    Except TransferFault Unit × Session :=
  match session.tally.recordPart counts with
  | .ok tally => (.ok (), { session with tally })
  | .error fault => (.error (.tally fault), session)

def setJobStatus (session : Session) (status : JobStatus) :
    Except TransferFault Unit × Session :=
  let (result, handle, volume) := session.handle.setJobStatus session.volume status
  (result.mapError TransferFault.plan, { session with handle, volume })

/-- Why a run could not be put away or taken up again. -/
inductive HandoverFault where
  | transfer (fault : TransferFault)
  | volume (fault : Volume.Fault)
  | summary (fault : Json.StoredFault)
  deriving DecidableEq

/-- Saves the totals and releases the plan. -/
def suspend (session : Session) (path : Volume.Path) (now : Timestamp) :
    Except HandoverFault Session := do
  let summary ← (session.tally.snapshot now).mapError fun fault => .transfer (.tally fault)
  match summary.save session.volume path with
  | (.ok (), saved) =>
      let (handle, volume) := session.handle.release saved
      .ok { session with handle, volume }
  | (.error fault, _) => .error (.volume fault)

/-- Takes a run up again from the file of its plan and that of its totals. -/
def resume (volume : Volume) (planPath summaryPath : Volume.Path) (tuning : Tuning) :
    Except HandoverFault Session := do
  let handle ← (Plan.Handle.open volume planPath).mapError fun fault => .transfer (.plan fault)
  let summary ← (Summary.load volume summaryPath).mapError HandoverFault.summary
  .ok { volume, handle, tally := .ofSummary summary, tuning }

end Session

end TransferLedger
