import TransferLedger.Proofs.Run
import TransferLedger.Proofs.Stamps

/-! Ledgers that were led through the same steps at different times.

They differ in the stamps of the plan and in what a snapshot replaces in the totals.
Neither has an effect on what a later step answers, so ledgers that are alike stay
alike.
-/

namespace TransferLedger

open Plan (Order Region)

namespace Summary

variable {summary : Summary}

/-- The totals as a snapshot shows them. -/
def dated (summary : Summary) (now : Timestamp) : Summary :=
  { summary with timestamp := now, errorMessage := "" }

theorem dated_addDetail (summary : Summary) (detail : Detail) (now : Timestamp) :
    (summary.addDetail detail).dated now = (summary.dated now).addDetail detail := by
  rw [addDetail, addDetail]
  cases detail.status.outcome? with
  | none => rfl
  | some outcome => cases outcome <;> rfl

theorem dated_addPart (summary : Summary) (counts : PartCounts) (now : Timestamp) :
    (summary.addPart counts).dated now = (summary.dated now).addPart counts :=
  rfl

end Summary

/-- Both tallies are installed and show the same totals in every snapshot. -/
def Tally.Alike (left right : Tally) : Prop :=
  ∃ one other, left = .ofSummary one ∧ right = .ofSummary other ∧
    ∀ now, one.dated now = other.dated now

namespace Ledger

variable {ledger twin : Ledger} {order : Order} {item : Order.Item} {index : UInt32}
variable {summary : Summary} {first second : UInt64}

/-- Two ledgers of one order that differ in stamps and in what snapshots replace only. -/
structure Alike (order : Order) (ledger twin : Ledger) : Prop where
  kept : ledger.region.Keeps order
  keptToo : twin.region.Keeps order
  regions : ledger.region.SameButStamps twin.region
  tallies : ledger.tally.Alike twin.tally

theorem Alike.report (alike : ledger.Alike order twin) (valid : order.Valid)
    (found : order.items[index.toNat]? = some item) (runs : first ≠ 0) (goes : second ≠ 0)
    (status : TransferStatus) (code : Int32) :
    (ledger.report (assignmentFor order index item) first status code).1 =
        (twin.report (assignmentFor order index item) second status code).1 ∧
      (ledger.report (assignmentFor order index item) first status code).2.region.SameButStamps
        (twin.report (assignmentFor order index item) second status code).2.region ∧
      (ledger.report (assignmentFor order index item) first status code).2.tally.Alike
        (twin.report (assignmentFor order index item) second status code).2.tally := by
  have known := alike.kept.known found
  obtain ⟨transition, regions⟩ := alike.regions.updateStatus (alike.kept.holds valid known) status
  obtain ⟨one, other, installed, installedToo, same⟩ := alike.tallies
  have held := (keeps_updateStatus alike.kept valid known status).holds valid known
  rw [report_eq alike.kept valid found installed,
    report_eq alike.keptToo valid found installedToo, transition]
  refine ⟨rfl, ?_⟩
  by_cases ends : (twin.region.updateStatus index status).1.entersTerminal = true
  · have still : index < (ledger.region.updateStatus index status).2.count := known
    have stamped := regions.stampCompletion held still runs goes
    rw [if_pos ends, if_pos ends]
    dsimp only
    refine ⟨stamped, ?_⟩
    refine ⟨_, _, rfl, rfl, fun now => ?_⟩
    rw [Summary.dated_addDetail, Summary.dated_addDetail, same now]
  · rw [if_neg ends, if_neg ends]
    exact ⟨regions, _, _, rfl, rfl, same⟩

/-- A step that is done in both ledgers has the same answer and leaves them alike. -/
theorem Alike.perform (alike : ledger.Alike order twin) (valid : order.Valid) (runs : first ≠ 0)
    (goes : second ≠ 0) (step : Step) :
    (ledger.perform ⟨step, first⟩).1 = (twin.perform ⟨step, second⟩).1 ∧
      (ledger.perform ⟨step, first⟩).2.Alike order (twin.perform ⟨step, second⟩).2 := by
  have kept := keeps_perform alike.kept valid ⟨step, first⟩
  have keptToo := keeps_perform alike.keptToo valid ⟨step, second⟩
  suffices same : (ledger.perform ⟨step, first⟩).1 = (twin.perform ⟨step, second⟩).1 ∧
      (ledger.perform ⟨step, first⟩).2.region.SameButStamps
        (twin.perform ⟨step, second⟩).2.region ∧
      (ledger.perform ⟨step, first⟩).2.tally.Alike (twin.perform ⟨step, second⟩).2.tally from
    ⟨same.1, kept, keptToo, same.2.1, same.2.2⟩
  clear kept keptToo
  cases step with
  | call index call =>
      by_cases known : index.toNat < order.items.length
      · have found := List.getElem?_eq_getElem known
        cases call with
        | start =>
            have held := alike.kept.holds valid (alike.kept.known found)
            obtain ⟨transition, regions⟩ := alike.regions.updateStatus held .started
            simp only [Ledger.perform, Ledger.call, takeUp_eq alike.kept valid found,
              takeUp_eq alike.keptToo valid found, start, map_ok]
            refine ⟨?_, regions, alike.tallies⟩
            exact congrArg (fun transition : Plan.Transition =>
              Except.ok (some transition.current)) transition
        | report status code =>
            obtain ⟨answer, same⟩ := alike.report valid found runs goes status code
            simp only [Ledger.perform, Ledger.call, takeUp_eq alike.kept valid found,
              takeUp_eq alike.keptToo valid found, answer]
            exact ⟨trivial, same⟩
      · have behind := Nat.le_of_not_lt known
        simp only [Ledger.perform, Ledger.call, takeUp_unknown alike.kept behind,
          takeUp_unknown alike.keptToo behind]
        exact ⟨trivial, alike.regions, alike.tallies⟩
  | recordPart counts =>
      obtain ⟨one, other, installed, installedToo, same⟩ := alike.tallies
      have recorded : ledger.tally.recordPart counts = .ok (.ofSummary (one.addPart counts)) := by
        rw [installed]
        rfl
      have recordedToo : twin.tally.recordPart counts =
          .ok (.ofSummary (other.addPart counts)) := by
        rw [installedToo]
        rfl
      simp only [Ledger.perform, Ledger.recordPart, recorded, recordedToo]
      refine ⟨trivial, alike.regions, _, _, rfl, rfl, fun now => ?_⟩
      rw [Summary.dated_addPart, Summary.dated_addPart, same now]
  | setJobStatus status =>
      obtain ⟨one, other, done, doneToo, same⟩ :=
        alike.regions.setJobStatus (alike.kept.long valid) status
      simp only [Ledger.perform, Ledger.setJobStatus, done, doneToo]
      exact ⟨trivial, same, alike.tallies⟩

end Ledger

end TransferLedger
