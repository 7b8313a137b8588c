import TransferLedger.Json.Printer
import TransferLedger.Plan.Region
import TransferLedger.Volume

/-! What a plan file says, printed as a document.

An inspection holds the status of the job, the header and every transfer with
its strings.  It is refused on the first defect: of the file, of a transfer in
the order of the indices, or of the job status.
-/

namespace TransferLedger

/-- Why an inspection was refused: what went wrong, and what caused it. -/
structure Inspection.Refusal where
  what : String
  causes : List String := []
  deriving DecidableEq

structure Inspection.Entry where
  index : UInt32
  source : String
  destination : String
  size : UInt64
  status : TransferStatus
  completionTime : UInt64
  deriving DecidableEq

structure Inspection where
  path : String
  jobStatus : JobStatus
  header : Plan.Header
  entries : List Inspection.Entry
  deriving DecidableEq

namespace Inspection

namespace Refusal

def ofFault (fault : Plan.Fault) : Refusal where
  what := fault.message
  causes := fault.cause?.toList

def during (what : String) (fault : Plan.Fault) : Refusal where
  what
  causes := fault.message :: fault.cause?.toList

/-- A line for each of several causes, which are counted from zero. -/
def numbered (causes : List String) : String :=
  String.join (causes.mapIdx fun place cause => "    " ++ toString place ++ ": " ++ cause ++ "\n")

def report (refusal : Refusal) : String :=
  "Error: " ++ refusal.what ++ "\n" ++
    match refusal.causes with
    | [] => ""
    | [cause] => "\nCaused by:\n    " ++ cause ++ "\n"
    | causes => "\nCaused by:\n" ++ numbered causes

end Refusal

namespace Entry

def ofRegion (region : Plan.Region) (index : UInt32) : Except Refusal Entry := do
  let record ← (region.record index).mapError Refusal.ofFault
  let (source, destination) ← (region.strings index).mapError
    (Refusal.during ("transfer " ++ toString index.toNat))
  let status ← (region.transferStatus index).mapError Refusal.ofFault
  .ok {
    index, source, destination, status
    size := record.descriptor.size
    completionTime := region.completionTime index }

def toJson (entry : Entry) : Json :=
  Json.record [
    ("index", .ofNat entry.index.toNat),
    ("source", .ofText entry.source),
    ("destination", .ofText entry.destination),
    ("sourceSize", .ofNat entry.size.toNat),
    ("status", Coded.toJson entry.status),
    ("completionTime", .ofNat entry.completionTime.toNat)]

end Entry

def ofRegion (path : String) (region : Plan.Region) : Except Refusal Inspection := do
  let entries ← (Plan.Region.indices region.count).mapM (Entry.ofRegion region)
  let jobStatus ← region.jobStatus.mapError Refusal.ofFault
  let header ← region.header.mapError Refusal.ofFault
  .ok { path, jobStatus, header, entries }

def ofContent (path : String) (content : Except Volume.Fault ByteArray) :
    Except Refusal Inspection := do
  let region ← ((content.mapError Plan.Fault.io) >>= Plan.Region.ofBytes).mapError
    (Refusal.during ("failed to open plan " ++ path))
  ofRegion path region

def toJson (inspection : Inspection) : Json :=
  Json.record [
    ("path", .ofText inspection.path),
    ("jobStatus", Coded.toJson inspection.jobStatus),
    ("header", inspection.header.toJson),
    ("transfers", .array (inspection.entries.map Entry.toJson))]

structure Printout where
  exitCode : UInt8
  output : String := ""
  /-- What was logged on the way, and the report of an error behind it. -/
  errors : String := ""
  deriving DecidableEq

def printout (result : Except Refusal Inspection) (logged : String := "") : Printout :=
  match result with
  | .ok inspection =>
      { exitCode := 0, output := inspection.toJson.pretty ++ "\n", errors := logged }
  | .error refusal => { exitCode := 1, errors := logged ++ refusal.report }

def usage : Printout :=
  printout (.error { what := "usage: plan-inspect <plan-file>" })

end Inspection

end TransferLedger
