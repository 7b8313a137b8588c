import TransferLedger.Json.Record
import TransferLedger.Summary

/-! Summaries as documents.

An empty error message and a zero error code are left out; every field but the
timestamp and the job id may be missing and then has its initial value.
-/

namespace TransferLedger.Summary

namespace Detail

def fieldNames : List String :=
  ["src", "dst", "transferStatus", "transferSize", "errorCode"]

def toJson (detail : Detail) : Json :=
  Json.record ([
    ("src", .ofText detail.source),
    ("dst", .ofText detail.destination),
    ("transferStatus", Coded.toJson detail.status),
    ("transferSize", .ofNat detail.size.toNat)] ++
    if detail.code = 0 then [] else [("errorCode", .ofInt detail.code.toInt)])

def ofJson? : Json → Option Detail :=
  Json.readRecord? fieldNames do
    let source ← Json.required Json.text?
    let destination ← Json.required Json.text?
    let status ← Json.required Coded.ofJson?
    let size ← Json.required Json.uint64?
    let code ← Json.withDefault 0 Json.int32?
    pure { source, destination, status, size, code }

end Detail

def fieldNames : List String :=
  ["timestamp", "jobId", "errorMsg", "jobStatus", "completeJobOrdered", "totalTransfers",
    "fileTransfers", "folderPropertyTransfers", "transfersCompleted", "transfersFailed",
    "transfersSkipped", "totalBytesTransferred", "totalBytesEnumerated", "totalBytesExpected",
    "failedTransfers", "skippedTransfers"]

def toJson (summary : Summary) : Json :=
  Json.record ([
    ("timestamp", .ofText summary.timestamp.toText),
    ("jobId", summary.jobId.toJson)] ++
    (if summary.errorMessage.isEmpty then [] else [("errorMsg", .ofText summary.errorMessage)]) ++ [
    ("jobStatus", Coded.toJson summary.jobStatus),
    ("completeJobOrdered", .bool summary.isOrdered),
    ("totalTransfers", .ofNat summary.totalTransfers.toNat),
    ("fileTransfers", .ofNat summary.fileTransfers.toNat),
    ("folderPropertyTransfers", .ofNat summary.folderTransfers.toNat),
    ("transfersCompleted", .ofNat summary.completed.toNat),
    ("transfersFailed", .ofNat summary.failed.toNat),
    ("transfersSkipped", .ofNat summary.skipped.toNat),
    ("totalBytesTransferred", .ofNat summary.bytesTransferred.toNat),
    ("totalBytesEnumerated", .ofNat summary.bytesEnumerated.toNat),
    ("totalBytesExpected", .ofNat summary.bytesExpected.toNat),
    ("failedTransfers", .array (summary.failures.map Detail.toJson)),
    ("skippedTransfers", .array (summary.skips.map Detail.toJson))])

def ofJson? : Json → Option Summary :=
  Json.readRecord? fieldNames do
    let timestamp ← Json.required fun json => json.text? >>= Timestamp.ofText?
    let jobId ← Json.required JobId.ofJson?
    let errorMessage ← Json.withDefault "" Json.text?
    let jobStatus ← Json.withDefault default Coded.ofJson?
    let isOrdered ← Json.withDefault false Json.bool?
    let totalTransfers ← Json.withDefault 0 Json.uint32?
    let fileTransfers ← Json.withDefault 0 Json.uint32?
    let folderTransfers ← Json.withDefault 0 Json.uint32?
    let completed ← Json.withDefault 0 Json.uint32?
    let failed ← Json.withDefault 0 Json.uint32?
    let skipped ← Json.withDefault 0 Json.uint32?
    let bytesTransferred ← Json.withDefault 0 Json.uint64?
    let bytesEnumerated ← Json.withDefault 0 Json.uint64?
    let bytesExpected ← Json.withDefault 0 Json.uint64?
    let failures ← Json.withDefault [] (Json.list? Detail.ofJson?)
    let skips ← Json.withDefault [] (Json.list? Detail.ofJson?)
    pure {
      timestamp, jobId, errorMessage, jobStatus, isOrdered, totalTransfers, fileTransfers,
      folderTransfers, completed, failed, skipped, bytesTransferred, bytesEnumerated,
      bytesExpected, failures, skips }

end TransferLedger.Summary
