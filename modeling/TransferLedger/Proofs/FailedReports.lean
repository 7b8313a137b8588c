import TransferLedger.Proofs.History

/-! Reports that end a transfer and cannot be counted.

The plan is written before the strings are read and the tally is asked, and it stays
written.  So the transfer has ended when the report fails, and the same report is not
counted when it is made again, whatever was repaired in the meantime.
-/

namespace TransferLedger

namespace TransferStatus

theorem merge_self (status : TransferStatus) : status.merge status = status := by
  by_cases failed : status = .failed
  · rw [failed, merge_failed]
  · rw [merge_of_ne_failed failed]

end TransferStatus

namespace Plan.Words

variable {words : Words} {status : TransferStatus}

/-- The words that are left when a report ends a transfer. -/
def endedBy (words : Words) (status : TransferStatus) (now : UInt64) : Words where
  code := status.code
  time := if words.time = 0 then now else words.time

theorem act_of_enters (enters : (words.transition status).entersTerminal = true) (code : Int32)
    (now : UInt64) :
    words.act (.call (.report status code) now) = words.endedBy status now := by
  have alive : words.status? ≠ some .failed := fun failed => by
    have runs := (entersTerminal_iff.1 enters).1 _ failed
    cases runs
  rw [act_report, if_pos enters, act_update, act_stamp, current_of_not_failed alive, endedBy]

theorem status?_endedBy (words : Words) (status : TransferStatus) (now : UInt64) :
    (words.endedBy status now).status? = some status :=
  status?_code rfl

/-- A report of the status that a transfer ended with leaves its words as they are. -/
theorem act_again (held : words.status? = some status) (ended : status.isTerminal = true)
    (code : Int32) (now : UInt64) : words.act (.call (.report status code) now) = words := by
  have passes : ¬ (words.transition status).entersTerminal = true := fun enters => by
    have runs := (entersTerminal_iff.1 enters).1 status held
    rw [ended] at runs
    cases runs
  rw [act_report, if_neg passes, act_update, transition, held, Option.map_some, Option.getD_some,
    TransferStatus.merge_self, ← code_of_status? held]

end Plan.Words

theorem Plan.Region.transferStatus_of_words {region : Plan.Region} {index : UInt32}
    {status : TransferStatus} (held : (region.words index).status? = some status) :
    region.transferStatus index = .ok status := by
  rw [status?_words] at held
  cases read : region.transferStatus index with
  | error fault =>
      rw [read] at held
      cases held
  | ok found =>
      rw [read] at held
      cases held
      rfl

namespace Ledger

open Plan (Order Region Words)

variable {ledger : Ledger} {index : UInt32} {assignment : Assignment} {status : TransferStatus}
variable {code : Int32} {now : UInt64} {fault : TransferFault}

/-- Only a report that ends the transfer can fail, and then nothing is counted. -/
theorem report_failed (failed : (ledger.report assignment now status code).1 = .error fault) :
    ((ledger.region.words assignment.index).transition status).entersTerminal = true ∧
      (ledger.report assignment now status code).2.tally = ledger.tally := by
  have transition : (ledger.region.updateStatus assignment.index status).1 =
      (ledger.region.words assignment.index).transition status := by
    rw [Region.updateStatus_words]
  rw [← transition]
  rw [report] at failed ⊢
  generalize ledger.region.updateStatus assignment.index status = update at failed ⊢
  cases enters : update.1.entersTerminal with
  | false =>
      simp only [enters, Bool.false_eq_true, if_false] at failed
      cases failed
  | true =>
      simp only [enters, if_true] at failed ⊢
      split at failed
      · cases failed
      · exact ⟨trivial, rfl⟩

/-- A report of the status that a transfer ended with is answered and not counted. -/
theorem report_again (held : ledger.region.transferStatus assignment.index = .ok status)
    (ended : status.isTerminal = true) (code : Int32) (now : UInt64) :
    (ledger.report assignment now status code).1 = .ok status ∧
      (ledger.report assignment now status code).2.tally = ledger.tally := by
  rw [report_uncounted assignment held (Or.inl ended), TransferStatus.merge_self]
  exact ⟨rfl, rfl⟩

theorem call_report (taken : ledger.takeUp index = .ok assignment) (status : TransferStatus)
    (code : Int32) (now : UInt64) :
    ledger.call index (.report status code) now = ledger.report assignment now status code := by
  simp only [call, taken]

theorem count_refused {order : Order} {item : Order.Item} {region : Region}
    (kept : region.Keeps order) (valid : order.Valid)
    (found : order.items[index.toNat]? = some item) (status : TransferStatus) (code : Int32) :
    ({ region, tally := {} } : Ledger).count (assignmentFor order index item) status code =
      .error (.tally .notInitialized) := by
  rw [count, detail_eq { region, tally := {} } kept valid found, ok_bind]
  rfl

/-- A report that ends a transfer fails when no summary is installed. -/
theorem call_refused {order : Order} {item : Order.Item} {current : TransferStatus}
    (kept : ledger.region.Keeps order) (valid : order.Valid)
    (found : order.items[index.toNat]? = some item)
    (held : ledger.region.transferStatus index = .ok current)
    (runs : current.isTerminal = false) (ends : status.isTerminal = true)
    (empty : ledger.tally = {}) (code : Int32) (now : UInt64) :
    ledger.call index (.report status code) now =
      (.error (.tally .notInitialized), {
        region := ((ledger.region.putStatus index status).stampCompletion index now).2
        tally := {} }) := by
  have known := kept.known found
  have updated := kept.putStatus valid known status
  have still : index < (ledger.region.putStatus index status).count := known
  have stamped := updated.stampCompletion valid still now
  have enters : Plan.Transition.entersTerminal
      { previous := some current, current := status } = true := by
    simp [Plan.Transition.entersTerminal, runs, ends]
  have refused := count_refused stamped valid found status code
  have place : (assignmentFor order index item).index = index := rfl
  rw [call_report (takeUp_eq kept valid found)]
  simp only [report, place, Region.updateStatus_eq held, TransferStatus.merge_of_running runs,
    enters, if_true, empty, refused]

end Ledger

namespace Session

open Plan (Order Region Handle)

variable {session next : Session} {ledger after : Ledger}

theorem tally_of_follows (follows : session.Follows ledger after next) :
    next.tally = after.tally := by
  cases follows with
  | stored => rfl
  | untouched same => rfl

variable {order : Order} {item : Order.Item} {region : Region} {index : UInt32}
variable {current status : TransferStatus}

/-- The session once a summary is installed. -/
def installed (session : Session) (seed : Summary) : Session :=
  { session with tally := .ofSummary seed }

/-- A report that comes before a summary is installed is not made up for later. -/
theorem Stands.report_uninstalled (stands : session.Stands order { region, tally := {} })
    (valid : order.Valid) (found : order.items[index.toNat]? = some item)
    (held : region.transferStatus index = .ok current) (runs : current.isTerminal = false)
    (ends : status.isTerminal = true) (code : Int32) (now : UInt64) (seed : Summary) :
    (session.call index (.report status code) now).1 = .error (.tally .notInitialized) ∧
      (∃ record, session.handle.record session.volume index = .ok record ∧
        session.handle.transferStatus session.volume record = .ok current ∧
        (session.call index (.report status code) now).2.handle.transferStatus
          (session.call index (.report status code) now).2.volume record = .ok status) ∧
      (((session.call index (.report status code) now).2.installed seed).call index
        (.report status code) now).2.tally = .ofSummary seed ∧
      ((session.installed seed).call index (.report status code) now).2.tally =
        .ofSummary (seed.addDetail (Ledger.detailOf item status code)) := by
  have kept := stands.kept
  have known := kept.known found
  have refused := Ledger.call_refused kept valid found held runs ends rfl code now
  obtain ⟨answer, stood⟩ := stands.call valid index (.report status code) now
  rw [refused] at answer stood
  have updated := kept.putStatus valid known status
  have still : index < (region.putStatus index status).count := known
  have ended : ((region.putStatus index status).stampCompletion index now).2.transferStatus index =
      .ok status := by
    rw [Region.transferStatus_stampCompletion (updated.holds valid still)]
    exact Region.transferStatus_putStatus_self (kept.holds valid known) _
  generalize session.call index (.report status code) now = called at answer stood ⊢
  generalize ((region.putStatus index status).stampCompletion index now).2 = written at stood ended
  have again : (called.2.installed seed).Stands order
      { region := written, tally := .ofSummary seed } := ⟨stood.shows, stood.kept, rfl⟩
  have once : (session.installed seed).Stands order { region, tally := .ofSummary seed } :=
    ⟨stands.shows, kept, rfl⟩
  have record : session.handle.record session.volume index = .ok _ :=
    (stands.shows.view_eq fun region => region.record index).trans (kept.record_eq valid found)
  refine ⟨answer, ⟨_, record, ?_, ?_⟩, ?_, ?_⟩
  · exact (stands.shows.view_eq _).trans held
  · exact (stood.shows.view_eq _).trans ended
  · rw [(again.call valid index (.report status code) now).2.tally,
      Ledger.call_passes again.kept valid found ended (.report status code) now (Or.inl ends)]
  · rw [(once.call valid index (.report status code) now).2.tally,
      Ledger.call_ends once.kept valid found held rfl (.report status code) now runs ends]
    rfl

/-- A success is reported before a summary is installed.  The report fails, but the transfer
has succeeded.  When a summary is installed and the report is made again, it is not counted,
as it would have been if it had not failed before. -/
theorem failed_report_not_made_up :
    let order : Order := { items := [{ source := "a", destination := "b", size := 7 }] }
    let session : Session := { handle := { backing := .memory order.image, count := 1 } }
    Handle.createInMemory order = .ok session.handle ∧
      (session.call 0 (.report .success 0) 9).1 = .error (.tally .notInitialized) ∧
      (∃ record, session.handle.record session.volume 0 = .ok record ∧
        session.handle.transferStatus session.volume record = .ok .notStarted ∧
        (session.call 0 (.report .success 0) 9).2.handle.transferStatus
          (session.call 0 (.report .success 0) 9).2.volume record = .ok .success) ∧
      (((session.call 0 (.report .success 0) 9).2.installed {}).call 0
        (.report .success 0) 9).2.tally = .ofSummary {} ∧
      ((session.installed {}).call 0 (.report .success 0) 9).2.tally =
        .ofSummary { completed := 1, bytesTransferred := 7 } := by
  intro order session
  have valid : order.Valid := Plan.Order.validate_eq_ok_iff.1 rfl
  have made : Handle.createInMemory order = .ok session.handle := Handle.createInMemory_eq valid
  have found : order.items[(0 : UInt32).toNat]? =
      some { source := "a", destination := "b", size := 7 } := rfl
  have stands : session.Stands order { region := Region.ofOrder order, tally := {} } :=
    ⟨(Handle.Made.inMemory made).shows valid, Region.keeps_ofOrder valid, rfl⟩
  have held := Region.transferStatus_ofOrder valid found
  have ends : TransferStatus.success.isTerminal = true := rfl
  have counted : Summary.addDetail {} (Ledger.detailOf
      { source := "a", destination := "b", size := 7 } .success 0) =
      { completed := 1, bytesTransferred := 7 } := by decide
  obtain ⟨answer, written, again, once⟩ :=
    stands.report_uninstalled valid found held rfl ends 0 9 {}
  rw [counted] at once
  exact ⟨made, answer, written, again, once⟩

end Session

namespace Sharing

open Plan (Order Region Handle Words)
open Plan.Region (TransferWords)

variable {sharing : Sharing} {region : Region} {which : Nat} {index : UInt32}
variable {status : TransferStatus} {code : Int32} {now : UInt64} {fault : TransferFault}

/-- A call through an open handle is answered and counted as the ledger does it. -/
theorem Holds.call_eq (holds : sharing.Holds region) (reached : sharing.isOpen which = true)
    (index : UInt32) (call : Call) (now : UInt64) :
    sharing.reply? which index (.call call now) =
        some ((Ledger.call { region, tally := sharing.tally } index call now).1.map
          Deed.Reply.inEffect) ∧
      (sharing.perform (.act which index (.call call now))).tally =
        (Ledger.call { region, tally := sharing.tally } index call now).2.tally := by
  obtain ⟨handle, found, mapped⟩ := isOpen_iff.1 reached
  obtain ⟨answer, follows⟩ :=
    Session.call_follows (holds.ledger_eq found mapped) index call now
  constructor
  · rw [reply?, found, Option.map_some, Session.reply, answer]
  · simp only [Sharing.perform, through, found]
    exact Session.tally_of_follows follows

theorem Holds.takeUp (holds : sharing.Holds region) (known : index < region.count) :
    ∃ assignment, Ledger.takeUp { region, tally := sharing.tally } index = .ok assignment ∧
      assignment.index = index := by
  have accepted : Region.ofBytes ({ region, tally := sharing.tally } : Ledger).region.bytes =
      .ok region := holds.accepted
  exact Ledger.takeUp_of_accepted accepted known

/-- A report that fails ends its transfer and is not counted. -/
theorem Holds.report_failed (holds : sharing.Holds region) (known : index < region.count)
    (reached : sharing.isOpen which = true)
    (failed : sharing.reply? which index (.call (.report status code) now) =
      some (.error fault)) :
    ((region.words index).transition status).entersTerminal = true ∧
      (sharing.perform (.act which index (.call (.report status code) now))).tally =
        sharing.tally := by
  obtain ⟨assignment, taken, same⟩ := holds.takeUp known
  obtain ⟨told, tally⟩ := holds.call_eq reached index (.report status code) now
  rw [Ledger.call_report taken] at told tally
  rw [told, Option.some.injEq] at failed
  obtain ⟨enters, uncounted⟩ := Ledger.report_failed (map_eq_error_iff.1 failed)
  rw [same] at enters
  exact ⟨enters, tally.trans uncounted⟩

/-- The same report is answered, whatever the tally is, and neither counted nor written to the
words again. -/
theorem Holds.report_again (holds : sharing.Holds region) (known : index < region.count)
    (reached : sharing.isOpen which = true)
    (held : (region.words index).status? = some status) (ended : status.isTerminal = true)
    (code : Int32) (now : UInt64) :
    sharing.reply? which index (.call (.report status code) now) =
        some (.ok (.inEffect status)) ∧
      (sharing.perform (.act which index (.call (.report status code) now))).tally =
        sharing.tally ∧
      (sharing.perform (.act which index (.call (.report status code) now))).Reads index
        (region.words index) := by
  obtain ⟨assignment, taken, same⟩ := holds.takeUp known
  have current : ({ region, tally := sharing.tally } : Ledger).region.transferStatus
      assignment.index = .ok status := by
    rw [same]
    exact Region.transferStatus_of_words held
  obtain ⟨answer, uncounted⟩ := Ledger.report_again current ended code now
  obtain ⟨told, tally⟩ := holds.call_eq reached index (.report status code) now
  rw [Ledger.call_report taken] at told tally
  refine ⟨?_, tally.trans uncounted, ?_⟩
  · rw [told, answer]
    rfl
  · obtain ⟨after, stays, kept, words⟩ :=
      holds.act_writes known reached (.call (.report status code) now)
    rw [Words.act_again held ended] at words
    rw [← words]
    exact stays.reads (by rw [kept.count]; exact known)

/-- The plan was made or opened, and then something was done with it. -/
def Arises (sharing : Sharing) : Prop :=
  ∃ (first : Sharing) (actions : List Action), first.Begins ∧ first.run actions = sharing

theorem Arises.holds (arises : sharing.Arises) : ∃ region, sharing.Holds region := by
  obtain ⟨first, actions, begins, rfl⟩ := arises
  obtain ⟨start, begun⟩ := begins.holds
  obtain ⟨region, holds, _⟩ := begun.run actions
  exact ⟨region, holds⟩

/-- While the transfer has the words, a report of the status is answered and changes nothing,
whatever the tally and the strings of the plan are. -/
def Settles (index : UInt32) (status : TransferStatus) (words : Words) : Prop :=
  ∀ (later : Sharing) (region : Region), later.Holds region → index < region.count →
    region.words index = words → ∀ which code now, later.isOpen which = true →
      later.reply? which index (.call (.report status code) now) =
          some (.ok (.inEffect status)) ∧
        (later.perform (.act which index (.call (.report status code) now))).tally =
          later.tally ∧
        (later.perform (.act which index (.call (.report status code) now))).Reads index words

/-- A report that fails has ended its transfer: the status and the completion time are
written, nothing else of the plan is, and the tally is as it was.  As long as they stand the
same report is not counted any more. -/
theorem failed_report_stays (arises : sharing.Arises)
    (known : ∀ handle ∈ sharing.handles, index < handle.count)
    (reached : sharing.isOpen which = true)
    (failed : sharing.reply? which index (.call (.report status code) now) =
      some (.error fault)) :
    (sharing.perform (.act which index (.call (.report status code) now))).tally =
        sharing.tally ∧
      status.isTerminal = true ∧
      ∃ words before after, sharing.Reads index words ∧
        (∀ earlier, words.status? = some earlier → earlier.isTerminal = false) ∧
        (sharing.perform (.act which index (.call (.report status code) now))).Reads index
          (words.endedBy status now) ∧
        sharing.Shows sharing.path? before ∧
        (sharing.perform (.act which index (.call (.report status code) now))).Shows
          sharing.path? after ∧
        before.SameBut (TransferWords index) after ∧
        Settles index status (words.endedBy status now) := by
  obtain ⟨region, holds⟩ := arises.holds
  obtain ⟨handle, found, _⟩ := isOpen_iff.1 reached
  have member := List.mem_of_getElem? found
  have counted : index < region.count := by
    rw [← holds.counts handle member]
    exact known handle member
  obtain ⟨enters, uncounted⟩ := holds.report_failed counted reached failed
  obtain ⟨runs, ended⟩ := Words.entersTerminal_iff.1 enters
  obtain ⟨after, next, same, words⟩ :=
    holds.act_writes counted reached (.call (.report status code) now)
  rw [Words.act_of_enters enters] at words
  have reads := next.reads (by rw [same.count]; exact counted)
  rw [words] at reads
  have shows := next.shows
  rw [path?_perform] at shows
  refine ⟨uncounted, ended, region.words index, region, after, holds.reads counted, runs, reads,
    holds.shows, shows, same, ?_⟩
  intro later repaired stands inside left other code time opened
  have status : (repaired.words index).status? = some status := by
    rw [left, Words.status?_endedBy]
  have again := stands.report_again inside opened status ended code time
  rw [left] at again
  exact again

/-- A success that is reported before a summary is installed. -/
theorem failed_report_stays_uninstalled :
    let order : Order := { items := [{ source := "a", destination := "b", size := 7 }] }
    let sharing : Sharing := {
      volume := {}, path? := none, tally := {}
      handles := [{ backing := .memory order.image, count := 1 }] }
    sharing.Arises ∧
      sharing.reply? 0 0 (.call (.report .success 0) 9) =
        some (.error (.tally .notInitialized)) ∧
      ∃ words : Words, sharing.Reads 0 words ∧
        (sharing.perform (.act 0 0 (.call (.report .success 0) 9))).Reads 0
          (words.endedBy .success 9) ∧
        Settles 0 .success (words.endedBy .success 9) := by
  intro order sharing
  have valid : order.Valid := Plan.Order.validate_eq_ok_iff.1 rfl
  have made : Handle.createInMemory order = .ok _ := Handle.createInMemory_eq valid
  have arises : sharing.Arises := ⟨sharing, [], .inMemory made, rfl⟩
  let session : Session := { handle := { backing := .memory order.image, count := 1 } }
  have stands : session.Stands order { region := Region.ofOrder order, tally := {} } :=
    ⟨(Handle.Made.inMemory made).shows valid, Region.keeps_ofOrder valid, rfl⟩
  have found : order.items[(0 : UInt32).toNat]? =
      some { source := "a", destination := "b", size := 7 } := rfl
  have held := Region.transferStatus_ofOrder valid found
  have ends : TransferStatus.success.isTerminal = true := rfl
  have answer := (stands.report_uninstalled valid found held rfl ends 0 9 {}).1
  have failed : sharing.reply? 0 0 (.call (.report .success 0) 9) =
      some (.error (.tally .notInitialized)) := by
    have told := congrArg (Except.map Deed.Reply.inEffect) answer
    exact congrArg some told
  have known : ∀ handle ∈ sharing.handles, (0 : UInt32) < handle.count := by decide
  obtain ⟨_, _, words, _, _, first, _, last, _, _, _, settled⟩ :=
    failed_report_stays arises known rfl failed
  exact ⟨arises, failed, words, first, last, settled⟩

end Sharing

end TransferLedger
