import TransferLedger.Ledger

/-! Which carrier moves the data of a route.

There is a carrier for downloads of blobs and one for uploads to blobs.  Routes
to and from file shares are known but have no carrier yet; every other route is
refused.
-/

namespace TransferLedger

/-- What runs transfers of one kind, in a setting of type `σ`. -/
structure Carrier (σ : Type) where
  name : String
  carry : Assignment → σ → Except TransferFault Unit × σ

inductive Selection (σ : Type) where
  | carrier (chosen : Carrier σ)
  /-- A known route without a carrier. -/
  | unsupported (route : Route)

def Selection.describe {σ : Type} : Selection σ → String
  | .carrier chosen => "Strategy(\"" ++ chosen.name ++ "\")"
  | .unsupported route => "NotSupported(" ++ Coded.name route ++ ")"

structure Roster (σ : Type) where
  /-- Moves blobs to the local machine. -/
  download : Carrier σ
  /-- Moves local files to blobs. -/
  upload : Carrier σ

namespace Roster

variable {σ : Type}

def select (roster : Roster σ) (route : Route) : Except TransferFault (Selection σ) :=
  match route with
  | .blobLocal => .ok (.carrier roster.download)
  | .localBlob => .ok (.carrier roster.upload)
  | .fileLocal | .localFile => .ok (.unsupported route)
  | .unknown | .blobBlob | .fileBlob | .blobTrash =>
      .error (.unrecognizedRoute (Coded.name route))

def selectCode (roster : Roster σ) (raw : Int) : Except TransferFault (Selection σ) :=
  match Coded.ofCode raw with
  | .ok route => roster.select route
  | .error unknown => .error (.unrecognizedRoute unknown.message)

/-- Runs a transfer with the carrier of its route, and says whether there is
one. -/
def dispatch (roster : Roster σ) (assignment : Assignment) (state : σ) :
    Except TransferFault Bool × σ :=
  match roster.select assignment.route with
  | .error fault => (.error fault, state)
  | .ok (.unsupported _) => (.ok false, state)
  | .ok (.carrier carrier) =>
      let (result, after) := carrier.carry assignment state
      (result.map fun _ => true, after)

end Roster

end TransferLedger
