import TransferLedger.Json.Printer
import TransferLedger.Json.Stored
import TransferLedger.Summary.Document

/-! Summaries kept in files, so that a paused job can be resumed. -/

namespace TransferLedger.Summary

def save (summary : Summary) (volume : Volume) (path : Volume.Path) :
    Except Volume.Fault Unit × Volume :=
  volume.writeNested path summary.toJson.pretty.toUTF8

def load (volume : Volume) (path : Volume.Path) : Except Json.StoredFault Summary :=
  Json.load ofJson? volume path

end TransferLedger.Summary
