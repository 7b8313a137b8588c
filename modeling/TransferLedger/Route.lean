import TransferLedger.Coded

/-! The kinds of source and destination that a job part moves between. -/

namespace TransferLedger

inductive Route where
  | unknown
  | localBlob
  | localFile
  | blobLocal
  | fileLocal
  | blobBlob
  | fileBlob
  | blobTrash
  deriving DecidableEq, Repr, Inhabited

/-- Where data goes, seen from the local machine. -/
inductive Direction where
  | upload
  | download
  deriving DecidableEq, Repr

def Direction.name : Direction → String
  | .upload => "Upload"
  | .download => "Download"

namespace Route

def code : Route → Int
  | .unknown => 0
  | .localBlob => 1
  | .localFile => 2
  | .blobLocal => 3
  | .fileLocal => 4
  | .blobBlob => 5
  | .fileBlob => 6
  | .blobTrash => 7

def label : Route → String
  | .unknown => "Unknown"
  | .localBlob => "LocalBlob"
  | .localFile => "LocalFile"
  | .blobLocal => "BlobLocal"
  | .fileLocal => "FileLocal"
  | .blobBlob => "BlobBlob"
  | .fileBlob => "FileBlob"
  | .blobTrash => "BlobTrash"

instance : Coded Route where
  kind := "from-to"
  values := [.unknown, .localBlob, .localFile, .blobLocal, .fileLocal, .blobBlob, .fileBlob,
    .blobTrash]
  code := code
  label := label
  mem_values value := by cases value <;> decide
  code_injective left right := by cases left <;> cases right <;> decide
  label_injective left right := by cases left <;> cases right <;> decide

def direction? : Route → Option Direction
  | .localBlob | .localFile => some .upload
  | .blobLocal | .fileLocal => some .download
  | .unknown | .blobBlob | .fileBlob | .blobTrash => none

end Route

end TransferLedger
