import TransferLedger.Ledger
import TransferLedger.Proofs.Words

/-! Transfers taken up and reported in a ledger whose region keeps an order.

An assignment is made of immutable bytes only, so it is the same whenever it is
taken up.  A report leaves the immutable bytes as they are.
-/

namespace TransferLedger

open Plan (Order Region)
open Plan.Region (TransferWords)

theorem TransferStatus.merge_of_running {current : TransferStatus}
    (runs : current.isTerminal = false) (status : TransferStatus) :
    current.merge status = status := by
  apply merge_of_ne_failed
  intro failed
  subst failed
  cases runs

namespace Ledger

variable {ledger after other : Ledger} {order : Order} {item : Order.Item} {index : UInt32}
variable {assignment : Assignment} {status current : TransferStatus} {code : Int32} {now : UInt64}

def assignmentFor (order : Order) (index : UInt32) (item : Order.Item) : Assignment where
  record := { index, descriptor := item.descriptor (order.sourceOffset index.toNat) }
  route := order.header.route

def detailOf (item : Order.Item) (status : TransferStatus) (code : Int32) : Summary.Detail where
  source := item.source
  destination := item.destination
  status := status
  size := item.size
  code := code

theorem takeUp_eq (kept : ledger.region.Keeps order) (valid : order.Valid)
    (found : order.items[index.toNat]? = some item) :
    ledger.takeUp index = .ok (assignmentFor order index item) := by
  rw [takeUp, kept.record_eq valid found, mapError_ok, ok_bind, kept.header_eq valid, mapError_ok,
    ok_bind]
  rfl

theorem takeUp_unknown (kept : ledger.region.Keeps order)
    (behind : order.items.length ≤ index.toNat) :
    ledger.takeUp index =
      .error (.plan (.indexOutOfRange index (UInt32.ofNat order.items.length))) := by
  have unknown : ledger.region.count ≤ index := by
    rw [UInt32.le_iff_toNat_le, kept.count]
    exact behind
  have count : ledger.region.count = UInt32.ofNat order.items.length := by
    rw [← kept.count, UInt32.ofNat_toNat]
  rw [takeUp, Region.record_eq_error unknown, mapError_error, error_bind, count]

theorem record_of_takeUp (taken : ledger.takeUp index = .ok assignment) :
    ledger.region.record index = .ok assignment.record := by
  rw [takeUp, bind_eq_ok_iff] at taken
  obtain ⟨record, found, taken⟩ := taken
  rw [bind_eq_ok_iff] at taken
  obtain ⟨header, _, taken⟩ := taken
  cases taken
  cases read : ledger.region.record index with
  | error fault => simp [read] at found
  | ok there => simpa [read] using found

/-- Regions of one order give the same assignments. -/
theorem takeUp_congr (kept : ledger.region.Keeps order) (same : other.region.Keeps order)
    (valid : order.Valid) (index : UInt32) : ledger.takeUp index = other.takeUp index := by
  by_cases known : index.toNat < order.items.length
  · have found := List.getElem?_eq_getElem known
    rw [takeUp_eq kept valid found, takeUp_eq same valid found]
  · rw [takeUp_unknown kept (by omega), takeUp_unknown same (by omega)]

theorem strings_eq (kept : ledger.region.Keeps order) (valid : order.Valid)
    (found : order.items[index.toNat]? = some item) :
    ledger.strings (assignmentFor order index item) = .ok (item.source, item.destination) := by
  have read := kept.strings_eq valid found
  rw [strings]
  exact congrArg (Except.mapError TransferFault.plan) read

theorem detail_eq (ledger : Ledger) (kept : ledger.region.Keeps order) (valid : order.Valid)
    (found : order.items[index.toNat]? = some item) :
    ledger.detail (assignmentFor order index item) status code =
      .ok (detailOf item status code) := by
  rw [detail, strings_eq kept valid found, ok_bind]
  rfl

/-! ## What updates leave -/

theorem keeps_updateStatus {region : Region} (kept : region.Keeps order) (valid : order.Valid)
    (known : index < region.count) (status : TransferStatus) :
    (region.updateStatus index status).2.Keeps order :=
  kept.putStatus valid known _

theorem region_of_count (counted : ledger.count assignment status code = .ok after) :
    after.region = ledger.region := by
  rw [count, bind_eq_ok_iff] at counted
  obtain ⟨detail, _, counted⟩ := counted
  rw [bind_eq_ok_iff] at counted
  obtain ⟨tally, _, counted⟩ := counted
  cases counted
  rfl

/-- The region after a report, whether the report succeeds or not. -/
theorem region_report (ledger : Ledger) (assignment : Assignment) (now : UInt64)
    (status : TransferStatus) (code : Int32) :
    (ledger.report assignment now status code).2.region =
      if (ledger.region.updateStatus assignment.index status).1.entersTerminal = true then
        ((ledger.region.updateStatus assignment.index status).2.stampCompletion
          assignment.index now).2
      else (ledger.region.updateStatus assignment.index status).2 := by
  rw [report]
  generalize ledger.region.updateStatus assignment.index status = update
  cases enters : update.1.entersTerminal with
  | false => simp only [enters, Bool.false_eq_true, if_false]
  | true =>
      simp only [enters, if_true]
      split
      · rename_i counted
        have same := region_of_count counted
        dsimp only at same ⊢
        exact same
      · dsimp only

/-- A report writes to the words of its transfer, whether it succeeds or not. -/
theorem sameBut_report (held : ledger.region.Holds assignment.index) (now : UInt64)
    (status : TransferStatus) (code : Int32) :
    ledger.region.SameBut (TransferWords assignment.index)
      (ledger.report assignment now status code).2.region := by
  have updated := Region.sameBut_updateStatus held status
  have still : (ledger.region.updateStatus assignment.index status).2.Holds assignment.index := by
    rw [Region.Holds, updated.size]
    exact held
  rw [region_report]
  split
  · exact updated.trans (Region.sameBut_stampCompletion still now)
  · exact updated

/-! ## What a report does -/

/-- A report of a transfer that runs on, or has ended before. -/
theorem report_uncounted (assignment : Assignment)
    (held : ledger.region.transferStatus assignment.index = .ok current)
    (passed : current.isTerminal = true ∨ status.isTerminal = false) :
    ledger.report assignment now status code =
      (.ok (current.merge status),
        { ledger with
          region := ledger.region.putStatus assignment.index (current.merge status) }) := by
  have stays : Plan.Transition.entersTerminal
      { previous := some current, current := current.merge status } = false := by
    rcases passed with ended | runs
    · simp [Plan.Transition.entersTerminal, ended]
    · by_cases failed : current = .failed
      · simp [Plan.Transition.entersTerminal, failed, TransferStatus.isTerminal]
      · simp [Plan.Transition.entersTerminal, TransferStatus.merge_of_ne_failed failed, runs]
  simp only [report, Region.updateStatus_eq held, stays, Bool.false_eq_true, if_false]

theorem count_eq {region : Region} {summary : Summary} (kept : region.Keeps order)
    (valid : order.Valid) (found : order.items[index.toNat]? = some item) :
    ({ region, tally := .ofSummary summary } : Ledger).count (assignmentFor order index item)
        status code =
      .ok { region, tally := .ofSummary (summary.addDetail (detailOf item status code)) } := by
  rw [count, detail_eq { region, tally := .ofSummary summary } kept valid found, ok_bind]
  rfl

/-- A report in one equation, whether it ends the transfer or not. -/
theorem report_eq {summary : Summary} (kept : ledger.region.Keeps order) (valid : order.Valid)
    (found : order.items[index.toNat]? = some item)
    (installed : ledger.tally = .ofSummary summary) (now : UInt64) (status : TransferStatus)
    (code : Int32) :
    ledger.report (assignmentFor order index item) now status code =
      (.ok (ledger.region.updateStatus index status).1.current,
        if (ledger.region.updateStatus index status).1.entersTerminal = true then
          { region := ((ledger.region.updateStatus index status).2.stampCompletion index now).2
            tally := .ofSummary (summary.addDetail (detailOf item status code)) }
        else
          { region := (ledger.region.updateStatus index status).2
            tally := .ofSummary summary }) := by
  have known := kept.known found
  have updated := keeps_updateStatus kept valid known status
  have still : index < (ledger.region.updateStatus index status).2.count := known
  have stamped := updated.stampCompletion valid still now
  have place : (assignmentFor order index item).index = index := rfl
  simp only [report, place, installed, count_eq stamped valid found]
  split <;> rfl

/-- The report that ends a transfer. -/
theorem report_counted {summary : Summary} (kept : ledger.region.Keeps order)
    (valid : order.Valid) (found : order.items[index.toNat]? = some item)
    (held : ledger.region.transferStatus index = .ok current)
    (runs : current.isTerminal = false) (ends : status.isTerminal = true)
    (installed : ledger.tally = .ofSummary summary) :
    ledger.report (assignmentFor order index item) now status code =
      (.ok status,
        { region := ((ledger.region.putStatus index status).stampCompletion index now).2
          tally := .ofSummary (summary.addDetail (detailOf item status code)) }) := by
  have enters : Plan.Transition.entersTerminal
      { previous := some current, current := status } = true := by
    simp [Plan.Transition.entersTerminal, runs, ends]
  rw [report_eq kept valid found installed, Region.updateStatus_eq held,
    TransferStatus.merge_of_running runs, if_pos enters]

end Ledger

end TransferLedger
