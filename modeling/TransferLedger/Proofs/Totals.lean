import TransferLedger.Tally

/-! The totals of a job as sums over what was recorded, and a tally that is sent requests.

A tally answers no request but the installation of a summary until one is installed.  From
then on it holds that summary with the sums of the parts and details that were recorded
since.  The order in which they came shows only in the lists of details.
-/

namespace TransferLedger

namespace Summary

variable {summary : Summary}

/-! ## Sums -/

/-- Those details whose status has the outcome. -/
def ended (outcome : Outcome) (details : List Detail) : List Detail :=
  details.filter fun detail => detail.status.outcome? = some outcome

def bytesOf : List Detail → Nat
  | [] => 0
  | detail :: rest => detail.size.toNat + bytesOf rest

/-- The totals with some transfers that have ended. -/
def withDetails (summary : Summary) (details : List Detail) : Summary :=
  { summary with
    completed := summary.completed + .ofNat (ended .success details).length
    failed := summary.failed + .ofNat (ended .failure details).length
    skipped := summary.skipped + .ofNat (ended .skipped details).length
    bytesTransferred := summary.bytesTransferred + .ofNat (bytesOf (ended .success details))
    failures := summary.failures ++ ended .failure details
    skips := summary.skips ++ ended .skipped details }

theorem withDetails_nil (summary : Summary) : summary.withDetails [] = summary := by
  simp [withDetails, ended, bytesOf]

theorem withDetails_addDetail (summary : Summary) (detail : Detail) (rest : List Detail) :
    (summary.addDetail detail).withDetails rest = summary.withDetails (detail :: rest) := by
  have more (start : UInt32) (count : Nat) :
      start + 1 + UInt32.ofNat count = start + UInt32.ofNat (count + 1) := by
    rw [UInt32.ofNat_add, UInt32.add_assoc, UInt32.add_comm 1]
    rfl
  have bytes (start size : UInt64) (sum : Nat) :
      start + size + UInt64.ofNat sum = start + UInt64.ofNat (size.toNat + sum) := by
    rw [UInt64.ofNat_add, UInt64.ofNat_toNat, UInt64.add_assoc]
  cases found : detail.status.outcome? with
  | none => simp [addDetail, withDetails, ended, found]
  | some outcome =>
      cases outcome with
      | success => simp [addDetail, withDetails, ended, bytesOf, found, more, bytes]
      | failure => simp [addDetail, withDetails, ended, found, more]
      | skipped => simp [addDetail, withDetails, ended, found, more]

/-- Details that are added one by one. -/
theorem foldl_addDetail (summary : Summary) (details : List Detail) :
    details.foldl addDetail summary = summary.withDetails details := by
  induction details generalizing summary with
  | nil => exact (withDetails_nil summary).symm
  | cons detail rest ih => rw [List.foldl_cons, ih, withDetails_addDetail]

def sumOf (count : PartCounts → Nat) : List PartCounts → Nat
  | [] => 0
  | counts :: rest => count counts + sumOf count rest

/-- The totals with some parts that were created. -/
def withParts (summary : Summary) (parts : List PartCounts) : Summary :=
  { summary with
    isOrdered := summary.isOrdered || parts.any PartCounts.isFinal
    totalTransfers := summary.totalTransfers +
      .ofNat (sumOf (fun counts => counts.totalTransfers.toNat) parts)
    fileTransfers := summary.fileTransfers +
      .ofNat (sumOf (fun counts => counts.fileTransfers.toNat) parts)
    folderTransfers := summary.folderTransfers +
      .ofNat (sumOf (fun counts => counts.folderTransfers.toNat) parts)
    bytesEnumerated := summary.bytesEnumerated +
      .ofNat (sumOf (fun counts => counts.bytesEnumerated.toNat) parts)
    bytesExpected := summary.bytesExpected +
      .ofNat (sumOf (fun counts => counts.bytesEnumerated.toNat) parts) }

theorem withParts_nil (summary : Summary) : summary.withParts [] = summary := by
  simp [withParts, sumOf]

theorem withParts_addPart (summary : Summary) (counts : PartCounts) (rest : List PartCounts) :
    (summary.addPart counts).withParts rest = summary.withParts (counts :: rest) := by
  have more (start count : UInt32) (sum : Nat) :
      start + count + UInt32.ofNat sum = start + UInt32.ofNat (count.toNat + sum) := by
    rw [UInt32.ofNat_add, UInt32.ofNat_toNat, UInt32.add_assoc]
  have bytes (start size : UInt64) (sum : Nat) :
      start + size + UInt64.ofNat sum = start + UInt64.ofNat (size.toNat + sum) := by
    rw [UInt64.ofNat_add, UInt64.ofNat_toNat, UInt64.add_assoc]
  simp [addPart, withParts, sumOf, more, bytes, Bool.or_assoc]

/-- Details and parts have no field in common. -/
theorem withParts_addDetail (summary : Summary) (detail : Detail) (parts : List PartCounts) :
    (summary.addDetail detail).withParts parts = (summary.withParts parts).addDetail detail := by
  rw [addDetail, addDetail]
  cases detail.status.outcome? with
  | none => rfl
  | some outcome => cases outcome <;> rfl

theorem withDetails_append (summary : Summary) (first second : List Detail) :
    summary.withDetails (first ++ second) = (summary.withDetails first).withDetails second := by
  rw [← foldl_addDetail, ← foldl_addDetail, ← foldl_addDetail, List.foldl_append]

theorem withParts_withDetails (summary : Summary) (details : List Detail)
    (parts : List PartCounts) :
    (summary.withDetails details).withParts parts =
      (summary.withParts parts).withDetails details := by
  rw [← foldl_addDetail, ← foldl_addDetail]
  induction details generalizing summary with
  | nil => rfl
  | cons detail rest ih => rw [List.foldl_cons, ih, withParts_addDetail, List.foldl_cons]

/-! ## Orders of arrival -/

theorem sumOf_perm {parts others : List PartCounts} (same : parts.Perm others)
    (count : PartCounts → Nat) : sumOf count parts = sumOf count others := by
  induction same with
  | nil => rfl
  | cons counts _ ih => rw [sumOf, sumOf, ih]
  | swap first second rest =>
      rw [sumOf, sumOf, sumOf, sumOf]
      omega
  | trans _ _ first second => exact first.trans second

theorem bytesOf_perm {details others : List Detail} (same : details.Perm others) :
    bytesOf details = bytesOf others := by
  induction same with
  | nil => rfl
  | cons detail _ ih => rw [bytesOf, bytesOf, ih]
  | swap first second rest =>
      rw [bytesOf, bytesOf, bytesOf, bytesOf]
      omega
  | trans _ _ first second => exact first.trans second

theorem withParts_perm {parts others : List PartCounts} (same : parts.Perm others)
    (summary : Summary) : summary.withParts parts = summary.withParts others := by
  have final : parts.any PartCounts.isFinal = others.any PartCounts.isFinal := same.any_eq
  simp only [withParts, sumOf_perm same, final]

/-- The order in which transfers ended shows in the lists of details only. -/
theorem withDetails_perm {details others : List Detail} (same : details.Perm others)
    (summary : Summary) :
    summary.withDetails others = { summary.withDetails details with
        failures := (summary.withDetails others).failures
        skips := (summary.withDetails others).skips } ∧
      (summary.withDetails details).failures.Perm (summary.withDetails others).failures ∧
      (summary.withDetails details).skips.Perm (summary.withDetails others).skips := by
  have outcomes (outcome : Outcome) :
      (ended outcome details).Perm (ended outcome others) := same.filter _
  have lengths (outcome : Outcome) :
      (ended outcome details).length = (ended outcome others).length := (outcomes outcome).length_eq
  refine ⟨?_, (outcomes .failure).append_left _, (outcomes .skipped).append_left _⟩
  simp only [withDetails, lengths, bytesOf_perm (outcomes .success)]

end Summary

/-! ## Requests -/

namespace Tally

/-- What a tally is asked to do. -/
inductive Request where
  | install (summary : Summary)
  | recordPart (counts : PartCounts)
  | recordDetail (detail : Summary.Detail)
  | snapshot (now : Timestamp)

/-- A snapshot is told, of the other requests only whether they succeeded. -/
abbrev Reply := Except Fault (Option Summary)

/-- The tally after a change that may be refused. -/
def settle (tally : Tally) : Except Fault Tally → Reply × Tally
  | .ok after => (.ok none, after)
  | .error fault => (.error fault, tally)

def perform (tally : Tally) : Request → Reply × Tally
  | .install summary => tally.settle (tally.install summary)
  | .recordPart counts => tally.settle (tally.recordPart counts)
  | .recordDetail detail => tally.settle (tally.recordDetail detail)
  | .snapshot now => ((tally.snapshot now).map some, tally)

/-- The replies to some requests in turn, and the tally after them. -/
def run (tally : Tally) : List Request → List Reply × Tally
  | [] => ([], tally)
  | request :: rest =>
      let (reply, after) := tally.perform request
      let (replies, last) := after.run rest
      (reply :: replies, last)

namespace Request

def part? : Request → Option PartCounts
  | .recordPart counts => some counts
  | .install _ | .recordDetail _ | .snapshot _ => none

def detail? : Request → Option Summary.Detail
  | .recordDetail detail => some detail
  | .install _ | .recordPart _ | .snapshot _ => none

/-- The first summary that is asked to be installed, and the requests after that. -/
def installation? : List Request → Option (Summary × List Request)
  | [] => none
  | .install seed :: since => some (seed, since)
  | .recordPart _ :: rest | .recordDetail _ :: rest | .snapshot _ :: rest => installation? rest

end Request

/-- The summary that is installed after some requests, and the requests since then.  A tally
that was made with a summary has had it from the start. -/
def installation? (tally : Tally) (requests : List Request) : Option (Summary × List Request) :=
  match tally.summary? with
  | some seed => some (seed, requests)
  | none => Request.installation? requests

/-- The totals of a summary with what was recorded since it was installed. -/
def totals (seed : Summary) (since : List Request) : Summary :=
  (seed.withParts (since.filterMap Request.part?)).withDetails (since.filterMap Request.detail?)

def afterInstallation : Option (Summary × List Request) → Tally
  | none => {}
  | some (seed, since) => .ofSummary (totals seed since)

/-- What a request is answered when all that is known of the past is the installation. -/
def replyAfter : Option (Summary × List Request) → Request → Reply
  | none, .install _ => .ok none
  | none, _ => .error .notInitialized
  | some _, .install _ => .error .alreadyInitialized
  | some _, .recordPart _ | some _, .recordDetail _ => .ok none
  | some (seed, since), .snapshot now =>
      .ok (some { totals seed since with timestamp := now, errorMessage := "" })

variable {tally : Tally} {seed : Summary}

theorem totals_nil (seed : Summary) : totals seed [] = seed := by
  rw [totals, List.filterMap_nil, List.filterMap_nil, Summary.withParts_nil,
    Summary.withDetails_nil]

theorem totals_recordPart (seed : Summary) (counts : PartCounts) (rest : List Request) :
    totals seed (.recordPart counts :: rest) = totals (seed.addPart counts) rest := by
  simp only [totals, Request.part?, Request.detail?, List.filterMap_cons,
    Summary.withParts_addPart]

theorem totals_recordDetail (seed : Summary) (detail : Summary.Detail) (rest : List Request) :
    totals seed (.recordDetail detail :: rest) = totals (seed.addDetail detail) rest := by
  simp only [totals, Request.part?, Request.detail?, List.filterMap_cons,
    Summary.withParts_addDetail, Summary.withDetails_addDetail]

theorem run_ofSummary (seed : Summary) (requests : List Request) :
    ((ofSummary seed).run requests).2 = .ofSummary (totals seed requests) := by
  induction requests generalizing seed with
  | nil => rw [totals_nil]; rfl
  | cons request rest ih =>
      cases request with
      | install summary => exact ih seed
      | recordPart counts =>
          rw [totals_recordPart]
          exact ih (seed.addPart counts)
      | recordDetail detail =>
          rw [totals_recordDetail]
          exact ih (seed.addDetail detail)
      | snapshot now => exact ih seed

/-- What is asked of an empty tally before the first installation leaves no trace. -/
theorem run_empty (requests : List Request) :
    (({} : Tally).run requests).2 = afterInstallation (Request.installation? requests) := by
  induction requests with
  | nil => rfl
  | cons request rest ih =>
      cases request with
      | install seed => exact run_ofSummary seed rest
      | recordPart counts => exact ih
      | recordDetail detail => exact ih
      | snapshot now => exact ih

theorem run_eq (tally : Tally) (requests : List Request) :
    (tally.run requests).2 = afterInstallation (tally.installation? requests) := by
  obtain ⟨summary?⟩ := tally
  cases summary? with
  | none => exact run_empty requests
  | some seed => exact run_ofSummary seed requests

theorem perform_afterInstallation (installation : Option (Summary × List Request))
    (request : Request) :
    ((afterInstallation installation).perform request).1 = replyAfter installation request := by
  cases installation with
  | none => cases request <;> rfl
  | some pair => cases request <;> rfl

/-- A refused request changes nothing. -/
theorem perform_of_error {request : Request} {fault : Fault}
    (refused : (tally.perform request).1 = .error fault) : (tally.perform request).2 = tally := by
  have settled {result : Except Fault Tally} (refused : (tally.settle result).1 = .error fault) :
      (tally.settle result).2 = tally := by
    cases result with
    | ok after => cases refused
    | error found => rfl
  cases request with
  | install summary => exact settled refused
  | recordPart counts => exact settled refused
  | recordDetail detail => exact settled refused
  | snapshot now => rfl

theorem getElem?_replies (tally : Tally) (done : List Request) (request : Request)
    (rest : List Request) :
    (tally.run (done ++ request :: rest)).1[done.length]? =
      some ((tally.run done).2.perform request).1 := by
  induction done generalizing tally with
  | nil => rfl
  | cons first done ih => exact ih (tally.perform first).2

theorem run_append_singleton (tally : Tally) (done : List Request) (request : Request) :
    (tally.run (done ++ [request])).2 = ((tally.run done).2.perform request).2 := by
  induction done generalizing tally with
  | nil => rfl
  | cons first done ih => exact ih (tally.perform first).2

/-- In any sequence of requests, each is answered by what the installation before it says,
and the tally is that summary with the sums of what was recorded since.  What is refused,
before the installation or because of it, changes nothing. -/
theorem replies_of_installation (tally : Tally) (done : List Request) (request : Request)
    (rest : List Request) :
    (tally.run done).2 = afterInstallation (tally.installation? done) ∧
    (tally.run (done ++ request :: rest)).1[done.length]? =
      some (replyAfter (tally.installation? done) request) ∧
    ∀ fault, replyAfter (tally.installation? done) request = .error fault →
      (tally.run (done ++ [request])).2 = (tally.run done).2 := by
  have state := run_eq tally done
  have reply := perform_afterInstallation (tally.installation? done) request
  rw [← state] at reply
  refine ⟨state, ?_, fun fault refused => ?_⟩
  · rw [getElem?_replies, reply]
  · rw [run_append_singleton]
    exact perform_of_error (reply.trans refused)

/-- A part comes too early, then the counters of the installed summary wrap around, and a
second summary comes too late. -/
theorem replies_of_installation_late :
    let seed : Summary := {
      timestamp := default, errorMessage := "paused", totalTransfers := 4294967295 }
    let failure : Summary.Detail := {
      source := "a", destination := "b", status := .failed, size := 7, code := 5 }
    let done : List Request := [.recordPart { totalTransfers := 9 }, .install seed,
      .recordDetail failure, .recordPart { totalTransfers := 3, isFinal := true }]
    (({} : Tally).run (done ++ [.install {}])).1 =
        [.error .notInitialized, .ok none, .ok none, .ok none, .error .alreadyInitialized] ∧
      (({} : Tally).run (done ++ [.install {}])).2 = (({} : Tally).run done).2 ∧
      (({} : Tally).run (done ++ [.snapshot default])).1[4]? = some (.ok (some {
        isOrdered := true, totalTransfers := 2, failed := 1, failures := [failure] })) := by
  intro seed failure done
  have wrapped : { totals seed (done.drop 2) with timestamp := default, errorMessage := "" } =
      ({ isOrdered := true, totalTransfers := 2, failed := 1, failures := [failure] } : Summary) :=
    by decide
  refine ⟨rfl, ?_, ?_⟩
  · exact (replies_of_installation {} done (.install {}) []).2.2 .alreadyInitialized rfl
  · rw [← wrapped]
    exact (replies_of_installation {} done (.snapshot default) []).2.1

end Tally

end TransferLedger
