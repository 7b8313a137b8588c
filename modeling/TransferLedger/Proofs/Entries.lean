import TransferLedger.Proofs.Run

/-! How often a transfer is counted.

A transfer is counted by every call that takes it from running to a terminal
status.  Only a failure cannot be taken back, so a transfer that is started again
after another end is counted again when it ends again.
-/

namespace TransferLedger

open Plan (Order Region Handle)

namespace TransferStatus

variable {current status : TransferStatus} {rest statuses : List TransferStatus}

/-- How many of some reported statuses end a transfer that has the given one. -/
def entries (current : TransferStatus) : List TransferStatus → Nat
  | [] => 0
  | status :: rest =>
      (if current.isTerminal = false ∧ status.isTerminal = true then 1 else 0) +
        entries (current.merge status) rest

/-- A transfer that has ended is taken up again, and ends again. -/
def RunsAgain (statuses : List TransferStatus) : Prop :=
  ∃ between restarted rest, statuses = between ++ restarted :: rest ∧ .failed ∉ between ∧
    restarted.isTerminal = false ∧ ∃ again ∈ rest, again.isTerminal = true

/-- A transfer ends without a failure, is taken up again, and ends again. -/
def Reopens (statuses : List TransferStatus) : Prop :=
  ∃ before ended rest, statuses = before ++ ended :: rest ∧ .failed ∉ before ∧
    ended ≠ .failed ∧ ended.isTerminal = true ∧ RunsAgain rest

theorem runsAgain_cons : RunsAgain (status :: rest) ↔
    (status.isTerminal = false ∧ ∃ again ∈ rest, again.isTerminal = true) ∨
      (status ≠ .failed ∧ RunsAgain rest) := by
  constructor
  · rintro ⟨between, restarted, behind, split, clean, runs, ends⟩
    cases between with
    | nil =>
        cases split
        exact Or.inl ⟨runs, ends⟩
    | cons first later =>
        cases split
        simp only [List.mem_cons, not_or] at clean
        exact Or.inr ⟨fun failed => clean.1 failed.symm, later, restarted, behind, rfl, clean.2,
          runs, ends⟩
  · rintro (⟨runs, ends⟩ | ⟨clean, between, restarted, behind, rfl, rest, runs, ends⟩)
    · exact ⟨[], status, rest, rfl, List.not_mem_nil, runs, ends⟩
    · refine ⟨status :: between, restarted, behind, rfl, ?_, runs, ends⟩
      simp only [List.mem_cons, not_or]
      exact ⟨fun failed => clean failed.symm, rest⟩

theorem reopens_cons : Reopens (status :: rest) ↔
    status ≠ .failed ∧ ((status.isTerminal = true ∧ RunsAgain rest) ∨ Reopens rest) := by
  constructor
  · rintro ⟨before, ended, behind, split, clean, alive, ends, again⟩
    cases before with
    | nil =>
        cases split
        exact ⟨alive, Or.inl ⟨ends, again⟩⟩
    | cons first later =>
        cases split
        simp only [List.mem_cons, not_or] at clean
        exact ⟨fun failed => clean.1 failed.symm,
          Or.inr ⟨later, ended, behind, rfl, clean.2, alive, ends, again⟩⟩
  · rintro ⟨clean, ⟨ends, again⟩ | ⟨before, ended, behind, rfl, rest, alive, ends, again⟩⟩
    · exact ⟨[], status, rest, rfl, List.not_mem_nil, clean, ends, again⟩
    · refine ⟨status :: before, ended, behind, rfl, ?_, alive, ends, again⟩
      simp only [List.mem_cons, not_or]
      exact ⟨fun failed => clean failed.symm, rest⟩

theorem RunsAgain.ends (again : RunsAgain statuses) :
    ∃ ended ∈ statuses, ended.isTerminal = true := by
  obtain ⟨between, restarted, rest, rfl, _, _, ended, member, ends⟩ := again
  exact ⟨ended, by simp [member], ends⟩

theorem Reopens.runsAgain (reopens : Reopens statuses) : RunsAgain statuses := by
  induction statuses with
  | nil =>
      obtain ⟨before, ended, rest, split, _⟩ := reopens
      simp at split
  | cons status rest ih =>
      obtain ⟨clean, ⟨_, again⟩ | later⟩ := reopens_cons.1 reopens
      · exact runsAgain_cons.2 (Or.inr ⟨clean, again⟩)
      · exact runsAgain_cons.2 (Or.inr ⟨clean, ih later⟩)

/-- Nothing ends a failed transfer. -/
theorem entries_failed (statuses : List TransferStatus) : entries .failed statuses = 0 := by
  induction statuses with
  | nil => rfl
  | cons status rest ih =>
      rw [entries, merge_failed, ih]
      rfl

/-- A running transfer ends if it is told to. -/
theorem entries_pos_of_running (runs : current.isTerminal = false) :
    0 < entries current statuses ↔ ∃ ended ∈ statuses, ended.isTerminal = true := by
  induction statuses generalizing current with
  | nil => simp [entries]
  | cons status rest ih =>
      rw [entries, merge_of_running runs]
      cases ends : status.isTerminal with
      | true =>
          rw [if_pos ⟨runs, rfl⟩]
          exact ⟨fun _ => ⟨status, List.mem_cons_self, ends⟩, fun _ => by omega⟩
      | false =>
          have later := ih ends
          simp [runs, ends, later]

/-- A transfer that has ended without a failure ends again if it runs again. -/
theorem entries_pos_of_ended (ended : current.isTerminal = true) (alive : current ≠ .failed) :
    0 < entries current statuses ↔ RunsAgain statuses := by
  induction statuses generalizing current with
  | nil => simp [entries, RunsAgain]
  | cons status rest ih =>
      rw [entries, merge_of_ne_failed alive, runsAgain_cons]
      cases ends : status.isTerminal with
      | false =>
          have later : 0 < entries status rest ↔ _ := entries_pos_of_running ends
          have running : status ≠ .failed := fun failed => by rw [failed] at ends; cases ends
          simp only [ended, Bool.true_eq_false, false_and, if_false, Nat.zero_add, later, running,
            ne_eq, not_false_eq_true, true_and]
          exact ⟨Or.inl, fun either => either.elim id RunsAgain.ends⟩
      | true =>
          by_cases failed : status = .failed
          · subst failed
            simp [ended, entries_failed]
          · simp [ended, failed, ih ends failed]

/-- A running transfer ends twice exactly if it is reopened. -/
theorem one_lt_entries (runs : current.isTerminal = false) :
    1 < entries current statuses ↔ Reopens statuses := by
  induction statuses generalizing current with
  | nil => simp [entries, Reopens]
  | cons status rest ih =>
      rw [entries, merge_of_running runs, reopens_cons]
      cases ends : status.isTerminal with
      | false =>
          have running : status ≠ .failed := fun failed => by rw [failed] at ends; cases ends
          simp [runs, running, ih ends]
      | true =>
          by_cases failed : status = .failed
          · subst failed
            simp [runs, entries_failed]
          · have again : 0 < entries status rest ↔ _ := entries_pos_of_ended ends failed
            simp only [runs, and_self, if_true, failed, ne_eq, not_false_eq_true, true_and]
            constructor
            · intro more
              exact Or.inl (again.1 (by omega))
            · rintro (first | later)
              · have more := again.2 first
                omega
              · have more := again.2 later.runsAgain
                omega

end TransferStatus

/-- Calls for one transfer, each with the time it is made, as events of a run. -/
def callEvents (index : UInt32) (calls : List (Call × UInt64)) : List Event :=
  calls.map fun (call, now) => { step := .call index call, now }

namespace Session

/-- What some calls for a transfer that has the given status add to the tally. -/
def counted (item : Order.Item) (current : TransferStatus) : List Call → List Summary.Detail
  | [] => []
  | call :: rest =>
      if current.isTerminal = false ∧ call.status.isTerminal = true then
        Ledger.detailOf item call.status call.code :: counted item (current.merge call.status) rest
      else counted item (current.merge call.status) rest

theorem length_counted (item : Order.Item) (current : TransferStatus) (calls : List Call) :
    (counted item current calls).length = current.entries (calls.map Call.status) := by
  induction calls generalizing current with
  | nil => rfl
  | cons call rest ih =>
      rw [counted, List.map_cons, TransferStatus.entries, ← ih]
      split
      · rw [List.length_cons, Nat.add_comm]
      · rw [Nat.zero_add]

/-- What a call does to the status word of its transfer. -/
def transition? (session : Session) (index : UInt32) (call : Call) : Option Plan.Transition :=
  match session.takeUp index with
  | .ok assignment =>
      (session.handle.updateStatus session.volume assignment.record call.status).1.toOption
  | .error _ => none

def transitions (session : Session) (index : UInt32) :
    List (Call × UInt64) → List (Option Plan.Transition)
  | [] => []
  | (call, now) :: rest =>
      session.transition? index call :: (session.call index call now).2.transitions index rest

/-- How many of some calls take the transfer from running to a terminal status. -/
def entries (session : Session) (index : UInt32) (calls : List (Call × UInt64)) : Nat :=
  (session.transitions index calls).countP fun transition =>
    (transition.map Plan.Transition.entersTerminal).getD false

variable {session : Session} {ledger : Ledger} {order : Order} {index : UInt32}
variable {item : Order.Item} {seed summary : Summary} {current : TransferStatus}
variable {calls : List (Call × UInt64)}

theorem transition_eq (stands : session.Stands order ledger) (valid : order.Valid)
    (found : order.items[index.toNat]? = some item)
    (held : ledger.region.transferStatus index = .ok current) (call : Call) :
    session.transition? index call =
      some { previous := some current, current := current.merge call.status } := by
  have taken := Ledger.takeUp_eq stands.kept valid found
  have updated := Region.updateStatus_eq held call.status
  rw [transition?, stands.takeUp_eq, taken]
  simp only [Ledger.assignmentFor, Handle.updateStatus, Handle.update, stands.shows.view_eq,
    updated, Except.toOption]

theorem entersTerminal_merge (current status : TransferStatus) :
    Plan.Transition.entersTerminal { previous := some current, current := current.merge status } =
      decide (current.isTerminal = false ∧ status.isTerminal = true) := by
  cases current <;> cases status <;> rfl

/-- The calls that enter a terminal status are those that are counted. -/
theorem entries_run (stands : session.Stands order ledger) (valid : order.Valid)
    (found : order.items[index.toNat]? = some item)
    (held : ledger.region.transferStatus index = .ok current)
    (installed : ledger.tally = .ofSummary summary) (calls : List (Call × UInt64)) :
    session.entries index calls = (counted item current (calls.map Prod.fst)).length ∧
      (session.run (callEvents index calls)).2.tally =
        .ofSummary
          ((counted item current (calls.map Prod.fst)).foldl Summary.addDetail summary) := by
  induction calls generalizing session ledger current summary with
  | nil => exact ⟨rfl, stands.tally.trans installed⟩
  | cons first rest ih =>
      obtain ⟨call, now⟩ := first
      obtain ⟨region, called, merged, _⟩ :=
        Ledger.call_eq stands.kept valid found held installed call now
      have stood := (stands.call valid index call now).2
      rw [called] at stood
      obtain ⟨same, tally⟩ := ih stood merged rfl
      have split : session.entries index ((call, now) :: rest) =
          (session.call index call now).2.entries index rest +
            if current.isTerminal = false ∧ call.status.isTerminal = true then 1 else 0 := by
        simp only [Session.entries, transitions, List.countP_cons,
          transition_eq stands valid found held, Option.map_some, Option.getD_some,
          entersTerminal_merge, decide_eq_true_eq]
      have final : (session.run (callEvents index ((call, now) :: rest))).2 =
          ((session.call index call now).2.run (callEvents index rest)).2 := rfl
      rw [split, same, final, tally, List.map_cons, counted]
      split
      · exact ⟨rfl, rfl⟩
      · exact ⟨rfl, rfl⟩

/-- A transfer is counted at most once exactly if it is not reopened: if no call takes it
up again after an end that was not a failure, so that a later call ends it again. -/
theorem entries_le_one_iff (valid : order.validate = .ok ()) (begins : session.Begins order seed)
    (found : order.items[index.toNat]? = some item) (calls : List (Call × UInt64)) :
    (session.entries index calls ≤ 1 ↔
      ¬ TransferStatus.Reopens (calls.map fun call => call.1.status)) ∧
    session.entries index calls = (counted item .notStarted (calls.map Prod.fst)).length ∧
    (session.run (callEvents index calls)).2.tally =
      .ofSummary ((counted item .notStarted (calls.map Prod.fst)).foldl Summary.addDetail seed) ∧
    ∀ done, (session.run (callEvents index done)).2.takeUp index = session.takeUp index := by
  have fits := Plan.Order.validate_eq_ok_iff.1 valid
  have held := Region.transferStatus_ofOrder fits found
  obtain ⟨same, tally⟩ := entries_run (begins.stands fits) fits found held rfl calls
  have twice : 1 < TransferStatus.entries .notStarted (calls.map fun call => call.1.status) ↔ _ :=
    TransferStatus.one_lt_entries rfl
  refine ⟨?_, same, tally, fun done => takeUp_run begins fits _ index⟩
  rw [same, length_counted, List.map_map, ← twice, Nat.not_lt]
  rfl

/-- A transfer that is started again after it failed is counted once. -/
theorem restart_after_failure_counts_once :
    let order : Order := { items := [{ size := 7 }] }
    let session : Session := {
      handle := { backing := .memory order.image, count := 1 }, tally := .ofSummary {} }
    order.validate = .ok () ∧ session.Begins order {} ∧
      session.entries 0 [(.report .failed 5, 1), (.start, 2), (.report .success 0, 3)] ≤ 1 := by
  intro order session
  have valid : order.validate = .ok () := by rfl
  have begins : session.Begins order {} :=
    ⟨.inMemory (Handle.createInMemory_eq (Plan.Order.validate_eq_ok_iff.1 valid)), rfl⟩
  have found : order.items[(0 : UInt32).toNat]? = some { size := 7 } := rfl
  refine ⟨valid, begins, (entries_le_one_iff valid begins found _).1.2 ?_⟩
  exact fun reopens => (TransferStatus.reopens_cons.1 reopens).1 rfl

/-- A transfer that is started again after it succeeded, and succeeds again, is counted
twice with all its bytes. -/
theorem restart_after_success_counts_twice :
    let order : Order := { items := [{ size := 7 }] }
    let session : Session := {
      handle := { backing := .memory order.image, count := 1 }, tally := .ofSummary {} }
    let calls := [(.report .success 0, 1), (.start, 2), (.report .success 0, 3)]
    order.validate = .ok () ∧ session.Begins order {} ∧ session.entries 0 calls = 2 ∧
      (session.run (callEvents 0 calls)).2.tally =
        .ofSummary { completed := 2, bytesTransferred := 14 } := by
  intro order session calls
  have valid : order.validate = .ok () := by rfl
  have fits := Plan.Order.validate_eq_ok_iff.1 valid
  have begins : session.Begins order {} := ⟨.inMemory (Handle.createInMemory_eq fits), rfl⟩
  have found : order.items[(0 : UInt32).toNat]? = some { size := 7 } := rfl
  have held := Region.transferStatus_ofOrder fits found
  obtain ⟨same, tally⟩ := entries_run (begins.stands fits) fits found held rfl calls
  refine ⟨valid, begins, same.trans (by decide), tally.trans (by decide)⟩

end Session

end TransferLedger
