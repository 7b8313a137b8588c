import TransferLedger.Proofs.Totals

/-! When a job is complete, as a matter of what was recorded.

The tally compares a sum of three counters, each of which may be near its limit, with a fourth
one.  The comparison comes out as it would on the numbers themselves, as long as no counter
has wrapped around: the sum may stop at the greatest word, but no total lies above that.
-/

namespace TransferLedger

namespace Summary

/-- The details that are counted in some bucket. -/
def counted (details : List Detail) : List Detail :=
  details.filter fun detail => detail.status.outcome?.isSome

theorem length_counted_eq (details : List Detail) :
    (counted details).length = (ended .success details).length +
      (ended .failure details).length + (ended .skipped details).length := by
  induction details with
  | nil => rfl
  | cons detail rest ih =>
      simp only [counted, ended] at ih
      cases found : detail.status.outcome? with
      | none => simp [counted, ended, found, ih]
      | some outcome =>
          cases outcome with
          | success => simp [counted, ended, found, ih]; omega
          | failure => simp [counted, ended, found, ih]; omega
          | skipped => simp [counted, ended, found, ih]; omega

theorem length_ended_append (outcome : Outcome) (details more : List Detail) :
    (ended outcome (details ++ more)).length =
      (ended outcome details).length + (ended outcome more).length := by
  rw [ended, List.filter_append, List.length_append, ended, ended]

theorem length_ended_replicate (outcome : Outcome) (times : Nat) (detail : Detail) :
    (ended outcome (List.replicate times detail)).length =
      if detail.status.outcome? = some outcome then times else 0 := by
  rw [ended, List.filter_replicate]
  by_cases same : detail.status.outcome? = some outcome
  · simp [same]
  · simp [same]

theorem sumOf_append (count : PartCounts → Nat) (parts more : List PartCounts) :
    sumOf count (parts ++ more) = sumOf count parts + sumOf count more := by
  induction parts with
  | nil => exact (Nat.zero_add _).symm
  | cons first rest ih =>
      rw [List.cons_append, sumOf, sumOf, ih, Nat.add_assoc]

theorem sumOf_eq_zero {count : PartCounts → Nat} {parts : List PartCounts}
    (none : ∀ counts ∈ parts, count counts = 0) : sumOf count parts = 0 := by
  induction parts with
  | nil => rfl
  | cons first rest ih =>
      obtain ⟨here, later⟩ := List.forall_mem_cons.1 none
      rw [sumOf, here, ih later]

theorem toNat_saturatingAdd (left right : UInt32) :
    (saturatingAdd left right).toNat = min (left.toNat + right.toNat) (UInt32.size - 1) := by
  have small : min (left.toNat + right.toNat) (UInt32.size - 1) < UInt32.size :=
    Nat.lt_of_le_of_lt (Nat.min_le_right _ _) (by decide)
  exact UInt32.toNat_ofNat_of_lt' small

/-- Adding up bucket by bucket stops where adding up all at once does. -/
theorem toNat_done (summary : Summary) :
    summary.done.toNat = min (summary.completed.toNat + summary.failed.toNat +
      summary.skipped.toNat) (UInt32.size - 1) := by
  rw [done, toNat_saturatingAdd, toNat_saturatingAdd]
  omega

theorem isComplete_iff (summary : Summary) :
    summary.isComplete = true ↔
      summary.isOrdered = true ∧ summary.totalTransfers.toNat ≤ summary.done.toNat := by
  rw [isComplete, Bool.and_eq_true, decide_eq_true_eq, UInt32.le_iff_toNat_le]

end Summary

namespace Tally

open Summary (sumOf ended counted)

variable {requests earlier later : List Request}

/-- The numbers that were recorded stay below the limits of the counters. -/
structure InRange (requests : List Request) : Prop where
  total : sumOf (fun counts => counts.totalTransfers.toNat) (requests.filterMap Request.part?) <
    UInt32.size
  each : ∀ outcome, (ended outcome (requests.filterMap Request.detail?)).length < UInt32.size

theorem InRange.of_append (within : InRange (earlier ++ later)) : InRange earlier := by
  obtain ⟨total, each⟩ := within
  rw [List.filterMap_append, Summary.sumOf_append] at total
  refine ⟨by omega, fun outcome => ?_⟩
  have bucket := each outcome
  rw [List.filterMap_append, Summary.length_ended_append] at bucket
  exact Nat.lt_of_le_of_lt (Nat.le_add_right _ _) bucket

/-- The totals of a new job are the numbers that were recorded. -/
theorem totals_fresh (within : InRange requests) (start : Timestamp) (jobId : JobId) :
    (totals (.fresh start jobId) requests).totalTransfers.toNat =
        sumOf (fun counts => counts.totalTransfers.toNat) (requests.filterMap Request.part?) ∧
      (totals (.fresh start jobId) requests).done.toNat =
        min (counted (requests.filterMap Request.detail?)).length (UInt32.size - 1) ∧
      ((totals (.fresh start jobId) requests).isOrdered = true ↔
        ∃ counts ∈ requests.filterMap Request.part?, counts.isFinal = true) := by
  have word {number : Nat} (fits : number < UInt32.size) :
      (0 + UInt32.ofNat number).toNat = number := by
    rw [UInt32.zero_add, UInt32.toNat_ofNat_of_lt' fits]
  refine ⟨word within.total, ?_, ?_⟩
  · have completed := word (within.each .success)
    have failed := word (within.each .failure)
    have skipped := word (within.each .skipped)
    rw [Summary.toNat_done, Summary.length_counted_eq]
    simp only [totals, Summary.withDetails, Summary.withParts, Summary.fresh, completed, failed,
      skipped]
  · simp only [totals, Summary.withDetails, Summary.withParts, Summary.fresh, Bool.false_or,
      List.any_eq_true]

theorem snapshot_run (requests : List Request) (start now : Timestamp) (jobId : JobId) :
    ((ofSummary (.fresh start jobId)).run requests).2.snapshot now =
      .ok { totals (.fresh start jobId) requests with timestamp := now, errorMessage := "" } := by
  rw [run_ofSummary]
  rfl

/-- Whether the numbers that were recorded make a complete job. -/
def Finished (requests : List Request) : Prop :=
  (∃ counts ∈ requests.filterMap Request.part?, counts.isFinal = true) ∧
    sumOf (fun counts => counts.totalTransfers.toNat) (requests.filterMap Request.part?) ≤
      (counted (requests.filterMap Request.detail?)).length

/-- What is recorded later keeps a job complete, unless it is a part with transfers. -/
theorem Finished.append (finished : Finished earlier)
    (none : ∀ counts ∈ later.filterMap Request.part?, counts.totalTransfers = 0) :
    Finished (earlier ++ later) := by
  obtain ⟨⟨counts, member, final⟩, enough⟩ := finished
  have nothing : sumOf (fun counts => counts.totalTransfers.toNat)
      (later.filterMap Request.part?) = 0 :=
    Summary.sumOf_eq_zero fun counts member => by rw [none counts member]; rfl
  rw [Finished, List.filterMap_append, List.filterMap_append, Summary.sumOf_append, nothing,
    counted, List.filter_append, List.length_append]
  refine ⟨⟨counts, List.mem_append_left _ member, final⟩, ?_⟩
  exact Nat.le_trans enough (Nat.le_add_right _ _)

theorem isComplete_snapshot (within : InRange requests) (start now : Timestamp) (jobId : JobId) :
    ({ totals (.fresh start jobId) requests with
      timestamp := now, errorMessage := "" } : Summary).isComplete = true ↔ Finished requests := by
  obtain ⟨total, done, final⟩ := totals_fresh within start jobId
  have below := within.total
  rw [Summary.isComplete_iff, Finished, ← final, ← total]
  refine and_congr_right fun _ => ?_
  change (totals (.fresh start jobId) requests).totalTransfers.toNat ≤
    (totals (.fresh start jobId) requests).done.toNat ↔ _
  rw [done]
  -- The sum may have stopped at the limit, but no total of parts in range lies above that.
  omega

/-- A new job that is told of parts and of ended transfers, in any order, has as many of them
done as it was told of, up to the limit of the counter.  It is complete when some part was
final and there are as many outcomes as transfers, and it stays so until a part with more
transfers comes. -/
theorem completion_exact (within : InRange requests) (start : Timestamp) (jobId : JobId) :
    (∀ now, ∃ snapshot,
      ((ofSummary (.fresh start jobId)).run requests).2.snapshot now = .ok snapshot ∧
      snapshot.done.toNat =
        min (counted (requests.filterMap Request.detail?)).length (UInt32.size - 1) ∧
      (snapshot.isComplete = true ↔ Finished requests)) ∧
    ∀ earlier later, requests = earlier ++ later →
      (∀ counts ∈ later.filterMap Request.part?, counts.totalTransfers = 0) →
      ∀ now again before after,
        ((ofSummary (.fresh start jobId)).run earlier).2.snapshot now = .ok before →
        ((ofSummary (.fresh start jobId)).run requests).2.snapshot again = .ok after →
        before.isComplete = true → after.isComplete = true := by
  constructor
  · intro now
    refine ⟨_, snapshot_run requests start now jobId, ?_, isComplete_snapshot within ..⟩
    exact (totals_fresh within start jobId).2.1
  · -- Sums and buckets only grow, so what is in range in the end was in range before.
    rintro earlier later rfl none now again before after first second complete
    rw [snapshot_run, Except.ok.injEq] at first second
    subst first second
    have finished := (isComplete_snapshot within.of_append ..).1 complete
    exact (isComplete_snapshot within ..).2 (finished.append none)

/-- Outcomes come before their part, and so many of them in two buckets that their number does
not fit in a counter. -/
theorem completion_exact_manyOutcomes :
    let detail (status : TransferStatus) : Summary.Detail := {
      source := "a", destination := "b", status, size := 1, code := 0 }
    let requests : List Request :=
      List.replicate 3000000000 (.recordDetail (detail .success)) ++
        (List.replicate 3000000000 (.recordDetail (detail .failed)) ++
          [.recordPart { totalTransfers := 4294967295, isFinal := true }])
    InRange requests ∧ ∃ snapshot,
      ((ofSummary (.fresh default default)).run requests).2.snapshot default = .ok snapshot ∧
      snapshot.done.toNat = 4294967295 ∧ snapshot.isComplete = true := by
  intro detail requests
  have parts : requests.filterMap Request.part? =
      [{ totalTransfers := 4294967295, isFinal := true }] := by
    simp only [requests, List.filterMap_append, List.filterMap_replicate, Request.part?]
    rfl
  have details : requests.filterMap Request.detail? =
      List.replicate 3000000000 (detail .success) ++
        List.replicate 3000000000 (detail .failed) := by
    simp only [requests, List.filterMap_append, List.filterMap_replicate, Request.detail?,
      List.filterMap_cons, List.filterMap_nil, List.append_nil]
  have within : InRange requests := by
    constructor
    · rw [parts]
      decide
    · intro outcome
      rw [details, Summary.length_ended_append, Summary.length_ended_replicate,
        Summary.length_ended_replicate]
      cases outcome with
      | success => decide
      | failure => decide
      | skipped => decide
  have count : (counted (requests.filterMap Request.detail?)).length = 6000000000 := by
    rw [details, counted, List.filter_append, List.filter_replicate_of_pos rfl,
      List.filter_replicate_of_pos rfl, List.length_append, List.length_replicate,
      List.length_replicate]
  obtain ⟨snapshot, taken, done, complete⟩ := (completion_exact within default default).1 default
  refine ⟨within, snapshot, taken, ?_, complete.2 ?_⟩
  · rw [done, count]
    rfl
  · rw [Finished, parts, count]
    exact ⟨⟨_, List.mem_singleton_self _, rfl⟩, by decide⟩

end Tally

end TransferLedger
