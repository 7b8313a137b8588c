import TransferLedger.Plan.Region
import TransferLedger.Tally
import TransferLedger.Tuning

/-! Reporting transfers to the plan and to the tally.

A ledger is the region of a plan together with the tally of its job.  Whoever
runs a transfer takes an assignment for it and reports through that.  Only the
report that ends a transfer is stamped and counted; later ones change at most
the status word.
-/

namespace TransferLedger

inductive TransferFault where
  /-- No carrier moves data on such a route; `what` says which route it is. -/
  | unrecognizedRoute (what : String)
  | plan (fault : Plan.Fault)
  | tally (fault : Tally.Fault)
  deriving DecidableEq, Repr

def TransferFault.message : TransferFault → String
  | .unrecognizedRoute what => "unrecognized from-to: " ++ what
  | .plan fault => "plan error: " ++ fault.message
  | .tally fault => "status error: " ++ fault.message

structure Ledger where
  region : Plan.Region
  tally : Tally

/-- A transfer that was taken up.  The route is that of the header at the time. -/
structure Assignment where
  record : Plan.Record
  route : Route
  deriving DecidableEq, Repr

namespace Assignment

def index (assignment : Assignment) : UInt32 :=
  assignment.record.index

def policy (assignment : Assignment) (tuning : Tuning) : RetryPolicy :=
  tuning.policy assignment.route

end Assignment

namespace Ledger

def takeUp (ledger : Ledger) (index : UInt32) : Except TransferFault Assignment := do
  let record ← (ledger.region.record index).mapError TransferFault.plan
  let header ← ledger.region.header.mapError TransferFault.plan
  .ok { record, route := header.route }

def strings (ledger : Ledger) (assignment : Assignment) : Except TransferFault (String × String) :=
  (ledger.region.strings assignment.index).mapError TransferFault.plan

def start (ledger : Ledger) (assignment : Assignment) : TransferStatus × Ledger :=
  let (transition, region) := ledger.region.updateStatus assignment.index .started
  (transition.current, { ledger with region })

def detail (ledger : Ledger) (assignment : Assignment) (status : TransferStatus) (code : Int32) :
    Except TransferFault Summary.Detail := do
  let (source, destination) ← ledger.strings assignment
  .ok { source, destination, status, size := assignment.record.descriptor.size, code }

def count (ledger : Ledger) (assignment : Assignment) (status : TransferStatus) (code : Int32) :
    Except TransferFault Ledger := do
  let detail ← ledger.detail assignment status code
  let tally ← (ledger.tally.recordDetail detail).mapError TransferFault.tally
  .ok { ledger with tally }

/-- Reports the status of a transfer at the time `now`, in nanoseconds since the
Unix epoch.  The plan is written first and stays written if the transfer cannot
be counted. -/
def report (ledger : Ledger) (assignment : Assignment) (now : UInt64) (status : TransferStatus)
    (code : Int32) : Except TransferFault TransferStatus × Ledger :=
  let (transition, updated) := ledger.region.updateStatus assignment.index status
  if transition.entersTerminal then
    let stamped := { ledger with region := (updated.stampCompletion assignment.index now).2 }
    match stamped.count assignment status code with
    | .ok counted => (.ok transition.current, counted)
    | .error fault => (.error fault, stamped)
  else (.ok transition.current, { ledger with region := updated })

end Ledger

end TransferLedger
