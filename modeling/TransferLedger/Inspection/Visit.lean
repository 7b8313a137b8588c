import TransferLedger.Inspection
import TransferLedger.Plan.Handle

/-! Plan files inspected through handles.

The file is opened, read record by record and let go of.  It is let go of with a
write-back only when all of it could be read.  What happens on the way is logged
on the stream of the errors.
-/

namespace TransferLedger.Inspection

open Plan (Handle Record)

/-! ## Events -/

/-- How much an event matters.  Without a wish of the user's, those for debugging
are not logged. -/
inductive Level where
  | warning
  | info
  | debug
  deriving DecidableEq

/-- A value that is logged with an event, before it is put into words. -/
inductive Event.Value where
  | text (text : String)
  | number (number : Nat)
  | path? (path? : Option String)

structure Event where
  level : Level
  message : String
  values : List (String × Event.Value)

namespace Event

def rejected (path : String) (fault : Plan.Fault) : Event where
  level := .warning
  message := "rejecting plan file: " ++ fault.message
  values := [("path", .text path)]

def opened (path : String) (part : PartNumber) (transfers : UInt32) : Event where
  level := .debug
  message := "plan opened"
  values := [("path", .text path), ("part", .text part.toText),
    ("transfers", .number transfers.toNat)]

def unmapped (path : String) : Event where
  level := .debug
  message := "plan unmapped"
  values := [("path", .path? (some path))]

def loaded (path : String) (transfers : Nat) : Event where
  level := .info
  message := "plan loaded"
  values := [("path", .text path), ("transfers", .number transfers)]

end Event

/-- Which events are logged, and the words and times that a line of the log has. -/
structure Log where
  admits : Event → Bool := fun event => event.level != .debug
  line : Event → String

def Log.write (log : Log) (events : List Event) : String :=
  String.join ((events.filter log.admits).map log.line)

/-- What opening a plan logs: that it is open, or that its header cannot be
decoded.  Other faults are not logged. -/
def opening (volume : Volume) (path : String) : List Event :=
  match volume.read (.ofText path) with
  | .error _ => []
  | .ok bytes =>
      if bytes.size < Plan.Layout.headerSize then []
      else
        match Plan.Header.read bytes, Plan.Region.ofBytes bytes with
        | .error fault, _ => [.rejected path fault]
        | .ok header, .ok region => [.opened path header.partNumber region.count]
        | .ok _, .error _ => []

/-! ## Visits -/

/-- The entry of a record that was handed out, or the refusal in its place. -/
def Entry.ofHandle (handle : Handle) (volume : Volume) (handed : Except Plan.Fault Record) :
    Except Refusal Entry := do
  let record ← handed.mapError Refusal.ofFault
  let (source, destination) ← (handle.strings volume record.index).mapError
    (Refusal.during ("transfer " ++ toString record.index.toNat))
  let status ← (handle.transferStatus volume record).mapError Refusal.ofFault
  let completionTime ← (handle.completionTime volume record).mapError Refusal.ofFault
  .ok {
    source, destination, status, completionTime
    index := record.index
    size := record.descriptor.size }

def ofHandle (path : String) (handle : Handle) (volume : Volume) :
    Except Refusal Inspection := do
  let entries ← (handle.records volume).mapM (Entry.ofHandle handle volume)
  let jobStatus ← (handle.jobStatus volume).mapError Refusal.ofFault
  let header ← (handle.header volume).mapError Refusal.ofFault
  .ok { path, jobStatus, header, entries }

/-- Inspects the plan at a path.  With the result come the events on the way and
the volume as it is afterwards.  What the system says of the bytes that are
written back is given. -/
def visit (volume : Volume) (path : String) (said : Except Volume.Fault Unit := .ok ()) :
    Except Refusal Inspection × List Event × Volume :=
  let events := opening volume path
  match Handle.open volume (.ofText path) with
  | .error fault => (.error (.during ("failed to open plan " ++ path) fault), events, volume)
  | .ok handle =>
      match ofHandle path handle volume with
      | .error refusal => (.error refusal, events, volume)
      | .ok inspection =>
          let events := events ++ [.unmapped path]
          match handle.unmap volume said with
          | (.error fault, _, after) => (.error (.ofFault fault), events, after)
          | (.ok (), _, after) =>
              (.ok inspection, events ++ [.loaded path inspection.entries.length], after)

/-- The whole command, with its arguments. -/
def command (log : Log) (volume : Volume) (arguments : List String)
    (said : Except Volume.Fault Unit := .ok ()) : Printout × Volume :=
  match arguments with
  | [] => (usage, volume)
  | path :: _ =>
      let (result, events, after) := visit volume path said
      (printout result (log.write events), after)

end TransferLedger.Inspection
