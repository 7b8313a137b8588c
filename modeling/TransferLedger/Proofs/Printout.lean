import TransferLedger.Inspection
import TransferLedger.Proofs.Summary

/-! Printed inspections read back.

An inspection is printed as one document in which every field is given, so a reader that knows
the names of the fields finds in it all that the inspection holds, whatever characters the
strings are made of.
-/

namespace TransferLedger

open Json (record plain_record required field_bind required_run readRecord?_members)

/-! ## Headers -/

namespace Plan

def BlobSettings.ofJson? : Json → Option BlobSettings :=
  Json.readRecord? ["noGuessMimeType", "contentType", "contentEncoding", "blockBlobTier",
      "pageBlobTier", "metadata", "blockSize"] do
    let keepsContentType ← required Json.bool?
    let contentType ← required Json.text?
    let contentEncoding ← required Json.text?
    let blockBlobTier ← required Json.text?
    let pageBlobTier ← required Json.text?
    let metadata ← required Json.text?
    let blockSize ← required Json.uint32?
    pure {
      keepsContentType, contentType, contentEncoding, blockBlobTier, pageBlobTier, metadata,
      blockSize }

def LocalSettings.ofJson? : Json → Option LocalSettings :=
  Json.readRecord? ["preserveLastModifiedTime"] do
    let keepsModifiedTime ← required Json.bool?
    pure { keepsModifiedTime }

def Header.ofJson? : Json → Option Header :=
  Json.readRecord? ["jobId", "partNumber", "isFinalPart", "priority", "ttlAfterCompletion",
      "fromTo", "numTransfers", "logLevel", "dstBlob", "dstLocal"] do
    let jobId ← required JobId.ofJson?
    let partNumber ← required PartNumber.ofJson?
    let isFinal ← required Json.bool?
    let priority ← required Coded.ofJson?
    let lifetime ← required Json.uint32?
    let route ← required Coded.ofJson?
    let transferCount ← required Json.uint32?
    let logLevel ← required Coded.ofJson?
    let blob ← required BlobSettings.ofJson?
    let localFile ← required LocalSettings.ofJson?
    pure {
      jobId, partNumber, isFinal, priority, lifetime, route, transferCount, logLevel, blob,
      localFile }

end Plan

/-! ## Inspections -/

namespace Inspection

def Entry.ofJson? : Json → Option Entry :=
  Json.readRecord? ["index", "source", "destination", "sourceSize", "status",
      "completionTime"] do
    let index ← required Json.uint32?
    let source ← required Json.text?
    let destination ← required Json.text?
    let size ← required Json.uint64?
    let status ← required Coded.ofJson?
    let completionTime ← required Json.uint64?
    pure { index, source, destination, size, status, completionTime }

def ofJson? : Json → Option Inspection :=
  Json.readRecord? ["path", "jobStatus", "header", "transfers"] do
    let path ← required Json.text?
    let jobStatus ← required Coded.ofJson?
    let header ← required Plan.Header.ofJson?
    let entries ← required (Json.list? Entry.ofJson?)
    pure { path, jobStatus, header, entries }

end Inspection

/-! ## What was printed -/

theorem PartNumber.ofJson?_toJson (part : PartNumber) : ofJson? part.toJson = some part := by
  rw [ofJson?, toJson, Json.uint32?_ofNat]
  rfl

namespace Plan

theorem BlobSettings.ofJson?_record (blob : BlobSettings) :
    ofJson? (record [
      ("noGuessMimeType", .bool blob.keepsContentType),
      ("contentType", .ofText blob.contentType),
      ("contentEncoding", .ofText blob.contentEncoding),
      ("blockBlobTier", .ofText blob.blockBlobTier),
      ("pageBlobTier", .ofText blob.pageBlobTier),
      ("metadata", .ofText blob.metadata),
      ("blockSize", .ofNat blob.blockSize.toNat)]) = some blob := by
  apply readRecord?_members
  · rfl
  · decide
  · repeat rw [List.map_cons]
    rw [field_bind (required_run (Json.bool?_bool _)),
      field_bind (required_run (Json.text?_ofText _)),
      field_bind (required_run (Json.text?_ofText _)),
      field_bind (required_run (Json.text?_ofText _)),
      field_bind (required_run (Json.text?_ofText _)),
      field_bind (required_run (Json.text?_ofText _)),
      field_bind (required_run (Json.uint32?_ofNat _))]
    rfl

theorem LocalSettings.ofJson?_record (localFile : LocalSettings) :
    ofJson? (record [("preserveLastModifiedTime", .bool localFile.keepsModifiedTime)]) =
      some localFile := by
  apply readRecord?_members
  · rfl
  · decide
  · rw [List.map_cons, field_bind (required_run (Json.bool?_bool _))]
    rfl

theorem Header.ofJson?_toJson (header : Header) : ofJson? header.toJson = some header := by
  apply readRecord?_members
  · rfl
  · decide
  · repeat rw [List.map_cons]
    rw [field_bind (required_run (JobId.ofJson?_toJson _)),
      field_bind (required_run (PartNumber.ofJson?_toJson _)),
      field_bind (required_run (Json.bool?_bool _)),
      field_bind (required_run (Coded.ofJson?_toJson _)),
      field_bind (required_run (Json.uint32?_ofNat _)),
      field_bind (required_run (Coded.ofJson?_toJson _)),
      field_bind (required_run (Json.uint32?_ofNat _)),
      field_bind (required_run (Coded.ofJson?_toJson _)),
      field_bind (required_run (BlobSettings.ofJson?_record _)),
      field_bind (required_run (LocalSettings.ofJson?_record _))]
    rfl

theorem Header.plain_toJson (header : Header) : header.toJson.Plain := by
  rw [toJson]
  apply plain_record
  simp [Json.Plain, Json.PlainMembers, record, Json.ofText, Json.ofNat, Json.ofInt, Coded.toJson,
    JobId.toJson, PartNumber.toJson]

end Plan

namespace Inspection

theorem Entry.ofJson?_toJson (entry : Entry) : ofJson? entry.toJson = some entry := by
  apply readRecord?_members
  · rfl
  · decide
  · repeat rw [List.map_cons]
    rw [field_bind (required_run (Json.uint32?_ofNat _)),
      field_bind (required_run (Json.text?_ofText _)),
      field_bind (required_run (Json.text?_ofText _)),
      field_bind (required_run (Json.uint64?_ofNat _)),
      field_bind (required_run (Coded.ofJson?_toJson _)),
      field_bind (required_run (Json.uint64?_ofNat _))]
    rfl

theorem Entry.plain_toJson (entry : Entry) : entry.toJson.Plain := by
  rw [toJson]
  apply plain_record
  simp [Json.Plain, Json.ofText, Json.ofNat, Json.ofInt, Coded.toJson]

/-- Everything that an inspection holds is in its document. -/
theorem ofJson?_toJson (inspection : Inspection) :
    ofJson? inspection.toJson = some inspection := by
  apply readRecord?_members
  · rfl
  · decide
  · repeat rw [List.map_cons]
    have entries := Json.list?_array Entry.ofJson?_toJson
    rw [field_bind (required_run (Json.text?_ofText _)),
      field_bind (required_run (Coded.ofJson?_toJson _)),
      field_bind (required_run (Plan.Header.ofJson?_toJson _)),
      field_bind (required_run (entries _))]
    rfl

theorem plain_toJson (inspection : Inspection) : inspection.toJson.Plain := by
  rw [toJson]
  apply plain_record
  have entries := Json.plainItems_map Entry.plain_toJson
  have header := inspection.header.plain_toJson
  simp [Json.Plain, Json.ofText, Coded.toJson, header, entries]

end Inspection

end TransferLedger
