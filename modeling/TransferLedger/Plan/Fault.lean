import TransferLedger.Coded
import TransferLedger.Volume
import TransferLedger.Text.Utf8

/-! What can be wrong with a plan. -/

namespace TransferLedger.Plan

inductive Fault where
  | io (fault : Volume.Fault)
  | indexOutOfRange (index count : UInt32)
  | outOfBounds (offset length region : Nat)
  | fieldTooLong (field : String) (length capacity : Nat)
  | stringTooLong (index length : Nat)
  | tooManyTransfers (count : Nat)
  | invalidUtf8 (what : String) (fault : Text.Utf8.Fault)
  | unsupportedVersion (found expected : Nat)
  | truncated (length needed : Nat)
  | invalidField (unknown : UnknownValue)
  | unmapped
  deriving DecidableEq, Repr

namespace Fault

def message : Fault → String
  | .io fault => "I/O error: " ++ fault.message
  | .indexOutOfRange index count =>
      "transfer index " ++ toString index.toNat ++ " out of range (part has " ++
        toString count.toNat ++ " transfers)"
  | .outOfBounds offset length region =>
      "byte range " ++ toString offset ++ "+" ++ toString length ++ " outside of " ++
        toString region ++ " byte region"
  | .fieldTooLong field length capacity =>
      field ++ " is " ++ toString length ++ " bytes (max " ++ toString capacity ++ ")"
  | .stringTooLong index length =>
      "path string of transfer " ++ toString index ++ " is " ++ toString length ++
        " bytes (max 65535)"
  | .tooManyTransfers count => "too many transfers in one part: " ++ toString count
  | .invalidUtf8 what fault => "invalid UTF-8 in " ++ what ++ ": " ++ fault.message
  | .unsupportedVersion found expected =>
      "unsupported plan schema version " ++ toString found ++ " (expected " ++
        toString expected ++ ")"
  | .truncated length needed =>
      "plan region is " ++ toString length ++ " bytes, need at least " ++ toString needed
  | .invalidField unknown => "invalid field: " ++ unknown.message
  | .unmapped => "plan has been unmapped"

/-- The message of the fault underneath, for a fault that only passes one on. -/
def cause? : Fault → Option String
  | .io fault => some fault.message
  | .invalidUtf8 _ fault => some fault.message
  | .invalidField unknown => some unknown.message
  | _ => none

end Fault

def known {α : Type} [Coded α] (raw : Int) : Except Fault α :=
  (Coded.ofCode raw).mapError Fault.invalidField

/-- Text stored in a plan; `what` names it in the fault. -/
def text (what : String) (bytes : ByteArray) : Except Fault String :=
  (Text.Utf8.decode bytes).mapError (Fault.invalidUtf8 what)

end TransferLedger.Plan
