import TransferLedger.Json.Reader
import TransferLedger.Text.Utf8
import TransferLedger.Volume

/-! JSON documents kept in files. -/

namespace TransferLedger.Json

inductive StoredFault where
  | io (fault : Volume.Fault)
  /-- The text is no document, or the document has the wrong form. -/
  | malformed
  deriving DecidableEq, Repr

def StoredFault.message : StoredFault → String
  | .io fault => "I/O error: " ++ fault.message
  | .malformed => "JSON error"

def readText (volume : Volume) (path : Volume.Path) : Except Volume.Fault String := do
  let bytes ← volume.read path
  (Text.Utf8.decode bytes).mapError fun _ => .notText

def parse? {α : Type} (decode : Json → Option α) (text : String) : Option α :=
  Json.read? text >>= decode

def load {α : Type} (decode : Json → Option α) (volume : Volume) (path : Volume.Path) :
    Except StoredFault α := do
  let text ← (readText volume path).mapError StoredFault.io
  match parse? decode text with
  | some value => .ok value
  | none => .error .malformed

end TransferLedger.Json
