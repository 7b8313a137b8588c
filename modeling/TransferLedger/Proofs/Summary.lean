import TransferLedger.Proofs.Except
import TransferLedger.Proofs.JobId
import TransferLedger.Proofs.Json.Record
import TransferLedger.Proofs.Timestamp
import TransferLedger.Proofs.Volume
import TransferLedger.Summary.Archive

/-! Saved summaries loaded again.

The document of a summary is the record of its fields.  All of them are read back,
those that were left out with the default that they had.
-/

namespace TransferLedger

open Json (given record plain_record required withDefault field_bind required_run withDefault_run
  withDefault_leave readRecord?_record)

variable {α : Type} [Coded α]

theorem Coded.plain_toJson (value : α) : (Coded.toJson value).Plain :=
  trivial

theorem JobId.ofJson?_toJson (id : JobId) : ofJson? id.toJson = some id :=
  ofText?_toText id

/-- The names under which an object has members. -/
def Json.memberNames : Json → List String
  | .object members => members.filterMap fun member => member.1.text?
  | _ => []

theorem Json.memberNames_record (members : List (String × Json)) :
    (record members).memberNames = members.map Prod.fst := by
  rw [record, memberNames, List.filterMap_map]
  exact congrFun List.filterMap_eq_map members

namespace Summary

namespace Detail

def fields (detail : Detail) : List (String × Option Json) :=
  [("src", some (.ofText detail.source)),
    ("dst", some (.ofText detail.destination)),
    ("transferStatus", some (Coded.toJson detail.status)),
    ("transferSize", some (.ofNat detail.size.toNat)),
    ("errorCode", if detail.code = 0 then none else some (.ofInt detail.code.toInt))]

theorem toJson_eq (detail : Detail) : detail.toJson = record (given detail.fields) := by
  unfold toJson fields
  split <;> rfl

theorem plain_toJson (detail : Detail) : detail.toJson.Plain := by
  rw [toJson]
  apply plain_record
  split <;> simp [Json.Plain, Json.ofText, Json.ofNat, Json.ofInt, Coded.toJson]

theorem ofJson?_toJson (detail : Detail) : ofJson? detail.toJson = some detail := by
  rw [toJson_eq, ofJson?]
  apply readRecord?_record
  · rfl
  · decide
  · rw [fields]
    repeat rw [List.map_cons]
    rw [field_bind (required_run (Json.text?_ofText detail.source)),
      field_bind (required_run (Json.text?_ofText detail.destination)),
      field_bind (required_run (Coded.ofJson?_toJson detail.status)),
      field_bind (required_run (Json.uint64?_ofNat detail.size)),
      field_bind (withDefault_leave id (Json.int32?_ofInt detail.code))]
    rfl

end Detail

def fields (summary : Summary) : List (String × Option Json) :=
  [("timestamp", some (.ofText summary.timestamp.toText)),
    ("jobId", some summary.jobId.toJson),
    ("errorMsg",
      if summary.errorMessage.isEmpty then none else some (.ofText summary.errorMessage)),
    ("jobStatus", some (Coded.toJson summary.jobStatus)),
    ("completeJobOrdered", some (.bool summary.isOrdered)),
    ("totalTransfers", some (.ofNat summary.totalTransfers.toNat)),
    ("fileTransfers", some (.ofNat summary.fileTransfers.toNat)),
    ("folderPropertyTransfers", some (.ofNat summary.folderTransfers.toNat)),
    ("transfersCompleted", some (.ofNat summary.completed.toNat)),
    ("transfersFailed", some (.ofNat summary.failed.toNat)),
    ("transfersSkipped", some (.ofNat summary.skipped.toNat)),
    ("totalBytesTransferred", some (.ofNat summary.bytesTransferred.toNat)),
    ("totalBytesEnumerated", some (.ofNat summary.bytesEnumerated.toNat)),
    ("totalBytesExpected", some (.ofNat summary.bytesExpected.toNat)),
    ("failedTransfers", some (.array (summary.failures.map Detail.toJson))),
    ("skippedTransfers", some (.array (summary.skips.map Detail.toJson)))]

variable {summary : Summary} {volume after : Volume} {path : Volume.Path}

theorem toJson_eq (summary : Summary) : summary.toJson = record (given summary.fields) := by
  unfold toJson fields
  split <;> rfl

theorem plain_toJson (summary : Summary) : summary.toJson.Plain := by
  rw [toJson]
  apply plain_record
  have details := Json.plainItems_map Detail.plain_toJson
  split <;>
    simp [Json.Plain, Json.ofText, Json.ofNat, Json.ofInt, Coded.toJson, JobId.toJson, details]

/-- Everything that a summary holds is in its document. -/
theorem ofJson?_toJson (positive : 0 ≤ summary.timestamp.date.year)
    (small : summary.timestamp.date.year ≤ 9999) : ofJson? summary.toJson = some summary := by
  rw [toJson_eq, ofJson?]
  apply readRecord?_record
  · rfl
  · decide
  · rw [fields]
    repeat rw [List.map_cons]
    have message : summary.errorMessage.isEmpty = true → summary.errorMessage = "" :=
      String.isEmpty_iff.1
    have details := Json.list?_array Detail.ofJson?_toJson
    rw [field_bind (required_run (Timestamp.ofText?_toText positive small)),
      field_bind (required_run (JobId.ofJson?_toJson _)),
      field_bind (withDefault_leave message (Json.text?_ofText _)),
      field_bind (withDefault_run (Coded.ofJson?_toJson _)),
      field_bind (withDefault_run (Json.bool?_bool _)),
      field_bind (withDefault_run (Json.uint32?_ofNat _)),
      field_bind (withDefault_run (Json.uint32?_ofNat _)),
      field_bind (withDefault_run (Json.uint32?_ofNat _)),
      field_bind (withDefault_run (Json.uint32?_ofNat _)),
      field_bind (withDefault_run (Json.uint32?_ofNat _)),
      field_bind (withDefault_run (Json.uint32?_ofNat _)),
      field_bind (withDefault_run (Json.uint64?_ofNat _)),
      field_bind (withDefault_run (Json.uint64?_ofNat _)),
      field_bind (withDefault_run (Json.uint64?_ofNat _)),
      field_bind (withDefault_run (details _)), field_bind (withDefault_run (details _))]
    rfl

/-- A summary is loaded from every volume that holds what was saved at its path. -/
theorem load_eq (positive : 0 ≤ summary.timestamp.date.year)
    (small : summary.timestamp.date.year ≤ 9999)
    (held : volume.read path = .ok summary.toJson.pretty.toUTF8) :
    load volume path = .ok summary := by
  have text : Json.readText volume path = .ok summary.toJson.pretty := by
    rw [Json.readText, held, ok_bind, Text.Utf8.decode_toUTF8, mapError_ok]
  have parsed : Json.parse? ofJson? summary.toJson.pretty = some summary := by
    rw [Json.parse?, Json.read?_pretty (plain_toJson summary)]
    exact ofJson?_toJson positive small
  rw [load, Json.load, text, mapError_ok, ok_bind, parsed]

/-! ## Members that are left out -/

theorem Detail.memberNames_toJson (detail : Detail) :
    detail.toJson.memberNames =
      fieldNames.filter fun name => name ≠ "errorCode" ∨ detail.code ≠ 0 := by
  rw [toJson, Json.memberNames_record]
  by_cases zero : detail.code = 0
  · simp [zero, fieldNames]
  · simp [zero, fieldNames]

theorem memberNames_toJson (summary : Summary) :
    summary.toJson.memberNames =
      fieldNames.filter fun name => name ≠ "errorMsg" ∨ summary.errorMessage ≠ "" := by
  rw [toJson, Json.memberNames_record]
  by_cases empty : summary.errorMessage = ""
  · simp [empty, fieldNames]
  · simp [empty, fieldNames]

/-- A summary that was saved is loaded as it was, whatever the volume held before.  The empty
message and the codes that are zero are the only things that its text leaves out. -/
theorem load_save (positive : 0 ≤ summary.timestamp.date.year)
    (small : summary.timestamp.date.year ≤ 9999)
    (saved : summary.save volume path = (.ok (), after)) :
    load after path = .ok summary ∧
    ∃ text, after.read path = .ok text.toUTF8 ∧ Json.read? text = some summary.toJson ∧
      (summary.toJson.memberNames =
        fieldNames.filter fun name => name ≠ "errorMsg" ∨ summary.errorMessage ≠ "") ∧
      ∀ detail ∈ summary.failures ++ summary.skips, detail.toJson.memberNames =
        Detail.fieldNames.filter fun name => name ≠ "errorCode" ∨ detail.code ≠ 0 := by
  have held := Volume.read_writeNested saved
  exact ⟨load_eq positive small held, _, held, Json.read?_pretty (plain_toJson summary),
    memberNames_toJson summary, fun detail _ => detail.memberNames_toJson⟩

/-- A summary with the greatest counters, a least code, a zero code, and texts that have to be
escaped, saved in a directory that is made for it. -/
theorem load_save_escapes :
    let moment : Timestamp := {
      date := { year := 9999, month := 12, day := 31, valid := by decide }
      hour := 23
      minute := 59
      second := 60
      nanos := 120000 }
    let detail : Detail := {
      source := "a\"b\\"
      destination := "\x00é"
      status := .failed
      size := 18446744073709551615
      code := -2147483648 }
    let summary : Summary := {
      timestamp := moment
      jobStatus := .failed
      totalTransfers := 4294967295
      bytesExpected := 18446744073709551615
      failures := [detail, { detail with code := 0 }] }
    let path : Volume.Path := { parts := ["kept", "summary"] }
    ∃ after, summary.save {} path = (.ok (), after) ∧ load after path = .ok summary := by
  intro moment detail summary path
  have written (bytes : ByteArray) : (({} : Volume).writeNested path bytes).1 = .ok () := rfl
  have saved : summary.save {} path = (.ok (), (summary.save {} path).2) :=
    Prod.ext (written _) rfl
  exact ⟨_, saved, (load_save (by decide) (by decide) saved).1⟩

end Summary

end TransferLedger
