import TransferLedger.Inspection

/-! The command line: prints the plan file at the path in the first argument.  It
keeps no log. -/

namespace TransferLedger.CommandLine

/-- The number and the wording that the system has for an error. -/
def describe : IO.Error → Nat × String
  | .alreadyExists _ code details | .interrupted _ code details
  | .noFileOrDirectory _ code details | .invalidArgument _ code details
  | .permissionDenied _ code details | .resourceExhausted _ code details
  | .inappropriateType _ code details | .noSuchThing _ code details
  | .otherError code details | .resourceBusy code details | .resourceVanished code details
  | .unsupportedOperation code details | .hardwareFault code details
  | .unsatisfiedConstraints code details | .illegalOperation code details
  | .protocolError code details | .timeExpired code details => (code.toNat, details)
  | .unexpectedEof => (0, "end of file")
  | .userError details => (0, details)

/-- The system's numbers for the faults that a volume knows. -/
def fault (error : IO.Error) : Volume.Fault :=
  match describe error with
  | (2, _) => .missing
  | (17, _) => .exists
  | (20, _) => .notDirectory
  | (21, _) => .isDirectory
  | (code, details) => .refused details code

/-- Reads a file that could also be written. -/
def readFile (path : String) : IO (Except Volume.Fault ByteArray) := do
  try
    let file ← IO.FS.Handle.mk path .readWrite
    return .ok (← file.readBinToEnd)
  catch error => return .error (fault error)

def run : List String → IO Inspection.Printout
  | [] => return Inspection.usage
  | path :: _ => return Inspection.printout (Inspection.ofContent path (← readFile path))

end TransferLedger.CommandLine

def main (arguments : List String) : IO UInt32 := do
  let printout ← TransferLedger.CommandLine.run arguments
  (← IO.getStdout).putStr printout.output
  (← IO.getStderr).putStr printout.errors
  return printout.exitCode.toUInt32
