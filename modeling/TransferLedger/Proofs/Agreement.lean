import TransferLedger.Proofs.Run

/-! What the status words of a plan and the tally of its job say about the same
transfers.

The tally counts a transfer when it ends.  It goes on to agree with the plan as
long as no report gives a transfer that has ended another outcome.
-/

namespace TransferLedger

open Plan (Order Region Handle)

/-! ## Transfers by outcome -/

namespace Outcome

variable {indices : List UInt32} {statuses : UInt32 → TransferStatus} {index : UInt32}
variable {status : TransferStatus} {outcome : Outcome}

/-- The statuses of transfers after one of them has changed. -/
def set (statuses : UInt32 → TransferStatus) (index : UInt32) (status : TransferStatus)
    (other : UInt32) : TransferStatus :=
  if other = index then status else statuses other

def select (indices : List UInt32) (statuses : UInt32 → TransferStatus) (outcome : Outcome) :
    List UInt32 :=
  indices.filter fun index => (statuses index).outcome? = some outcome

theorem select_set_same
    (same : status.outcome? = some outcome ↔ (statuses index).outcome? = some outcome) :
    select indices (set statuses index status) outcome = select indices statuses outcome := by
  apply List.filter_congr
  intro other _
  by_cases here : other = index
  · subst here
    simp only [set, if_true, same]
  · simp only [set, if_neg here]

/-- A transfer that gains an outcome is added to those that have it. -/
theorem select_set_gained (distinct : indices.Nodup) (member : index ∈ indices)
    (before : (statuses index).outcome? ≠ some outcome) (now : status.outcome? = some outcome) :
    (select indices (set statuses index status) outcome).Perm
      (index :: select indices statuses outcome) := by
  induction indices with
  | nil => cases member
  | cons first rest ih =>
      obtain ⟨apart, distinct⟩ := List.nodup_cons.1 distinct
      by_cases here : first = index
      · subst here
        have later : select rest (set statuses first status) outcome =
            select rest statuses outcome := by
          apply List.filter_congr
          intro other behind
          have different : other ≠ first := fun same => apart (same ▸ behind)
          simp only [set, if_neg different]
        have gained : select (first :: rest) (set statuses first status) outcome =
            first :: select rest (set statuses first status) outcome :=
          List.filter_cons_of_pos (by simp [set, now])
        have missing : select (first :: rest) statuses outcome = select rest statuses outcome :=
          List.filter_cons_of_neg (by simpa using before)
        rw [gained, missing, later]
      · have behind : index ∈ rest := (List.mem_cons.1 member).resolve_left (Ne.symm here)
        have later := ih distinct behind
        by_cases chosen : (statuses first).outcome? = some outcome
        · have kept : select (first :: rest) (set statuses index status) outcome =
              first :: select rest (set statuses index status) outcome :=
            List.filter_cons_of_pos (by simp [set, here, chosen])
          have listed : select (first :: rest) statuses outcome =
              first :: select rest statuses outcome :=
            List.filter_cons_of_pos (by simpa using chosen)
          rw [kept, listed]
          exact (later.cons first).trans (.swap index first _)
        · have skipped : select (first :: rest) (set statuses index status) outcome =
              select rest (set statuses index status) outcome :=
            List.filter_cons_of_neg (by simp [set, here, chosen])
          have absent : select (first :: rest) statuses outcome = select rest statuses outcome :=
            List.filter_cons_of_neg (by simpa using chosen)
          rwa [skipped, absent]

theorem set_set (statuses : UInt32 → TransferStatus) (index : UInt32) (status : TransferStatus) :
    set (set statuses index status) index (statuses index) = statuses := by
  funext other
  by_cases here : other = index
  · subst here
    simp only [set, if_true]
  · simp only [set, if_neg here]

theorem set_self (statuses : UInt32 → TransferStatus) (index : UInt32) (status : TransferStatus) :
    set statuses index status index = status :=
  if_pos rfl

/-- A transfer that loses an outcome is missing from those that have it. -/
theorem select_set_lost (distinct : indices.Nodup) (member : index ∈ indices)
    (before : (statuses index).outcome? = some outcome) (now : status.outcome? ≠ some outcome) :
    (select indices statuses outcome).Perm
      (index :: select indices (set statuses index status) outcome) := by
  have gained : (select indices (set (set statuses index status) index (statuses index))
      outcome).Perm (index :: select indices (set statuses index status) outcome) :=
    select_set_gained distinct member (by rwa [set_self]) before
  rwa [set_set] at gained

theorem ofNat_succ_ne (count : Nat) : UInt32.ofNat (count + 1) ≠ UInt32.ofNat count := by
  intro same
  have shifted := congrArg UInt32.toNat same
  simp only [UInt32.toNat_ofNat'] at shifted
  omega

/-- A count modulo the size of a counter tells whether an outcome has changed. -/
theorem count_set_iff (distinct : indices.Nodup) (member : index ∈ indices) :
    (∀ outcome, UInt32.ofNat (select indices (set statuses index status) outcome).length =
      UInt32.ofNat (select indices statuses outcome).length) ↔
      status.outcome? = (statuses index).outcome? := by
  constructor
  · intro same
    cases now : status.outcome? with
    | some outcome =>
        by_cases before : (statuses index).outcome? = some outcome
        · exact before.symm
        · have gained := (select_set_gained distinct member before now).length_eq
          have equal := same outcome
          rw [gained, List.length_cons] at equal
          exact absurd equal (ofNat_succ_ne _)
    | none =>
        cases before : (statuses index).outcome? with
        | none => rfl
        | some outcome =>
            have missing : status.outcome? ≠ some outcome := by rw [now]; nofun
            have lost := (select_set_lost distinct member before missing).length_eq
            have equal := same outcome
            rw [lost, List.length_cons] at equal
            exact absurd equal.symm (ofNat_succ_ne _)
  · intro same outcome
    rw [select_set_same (by rw [same])]

end Outcome

/-! ## Totals and statuses -/

namespace Summary

variable {detail : Detail} {summary : Summary}

def counter (summary : Summary) : Outcome → UInt32
  | .success => summary.completed
  | .failure => summary.failed
  | .skipped => summary.skipped

theorem counter_addDetail (summary : Summary) (detail : Detail) (outcome : Outcome) :
    (summary.addDetail detail).counter outcome =
      if detail.status.outcome? = some outcome then summary.counter outcome + 1
      else summary.counter outcome := by
  unfold addDetail
  cases counted : detail.status.outcome? with
  | none => rfl
  | some bucket => cases bucket <;> cases outcome <;> rfl

theorem failures_addDetail (summary : Summary) (detail : Detail) :
    (summary.addDetail detail).failures =
      if detail.status.outcome? = some .failure then summary.failures ++ [detail]
      else summary.failures := by
  unfold addDetail
  cases counted : detail.status.outcome? with
  | none => rfl
  | some bucket => cases bucket <;> rfl

/-- The counters and the failures of a summary are those of the given transfers. -/
structure Matches (summary : Summary) (strings : UInt32 → Except Plan.Fault (String × String))
    (indices : List UInt32) (statuses : UInt32 → TransferStatus) : Prop where
  counts : ∀ outcome,
    summary.counter outcome = UInt32.ofNat (Outcome.select indices statuses outcome).length
  failures : (summary.failures.map fun detail => .ok (detail.source, detail.destination)).Perm
    ((Outcome.select indices statuses .failure).map strings)

variable {strings : UInt32 → Except Plan.Fault (String × String)} {indices : List UInt32}
variable {statuses : UInt32 → TransferStatus} {index : UInt32} {status : TransferStatus}

theorem outcome_of_running (runs : status.isTerminal = false) : status.outcome? = none := by
  cases status <;> first | rfl | cases runs

theorem Matches.addDetail (right : summary.Matches strings indices statuses)
    (distinct : indices.Nodup) (member : index ∈ indices)
    (runs : (statuses index).isTerminal = false)
    (named : strings index = .ok (detail.source, detail.destination)) :
    (summary.addDetail detail).Matches strings indices
      (Outcome.set statuses index detail.status) := by
  have before := outcome_of_running runs
  constructor
  · intro outcome
    rw [counter_addDetail, right.counts]
    by_cases gains : detail.status.outcome? = some outcome
    · have missing : (statuses index).outcome? ≠ some outcome := by rw [before]; nofun
      have gained := Outcome.select_set_gained distinct member missing gains
      rw [if_pos gains, gained.length_eq, List.length_cons, UInt32.ofNat_add]
      rfl
    · rw [if_neg gains, Outcome.select_set_same (by simp only [gains, before, reduceCtorEq])]
  · rw [failures_addDetail]
    by_cases fails : detail.status.outcome? = some .failure
    · have missing : (statuses index).outcome? ≠ some .failure := by rw [before]; nofun
      have gained := Outcome.select_set_gained distinct member missing fails
      have added := (right.failures.cons (strings index)).trans (gained.map strings).symm
      rw [if_pos fails, List.map_append, List.map_singleton, ← named]
      exact (List.perm_append_singleton _ _).trans added
    · rw [if_neg fails, Outcome.select_set_same (by simp only [fails, before, reduceCtorEq])]
      exact right.failures

/-- A change of a status that is not counted keeps the totals right exactly if it keeps
the outcome. -/
theorem Matches.set_iff (right : summary.Matches strings indices statuses)
    (distinct : indices.Nodup) (member : index ∈ indices) :
    summary.Matches strings indices (Outcome.set statuses index status) ↔
      status.outcome? = (statuses index).outcome? := by
  constructor
  · intro still
    apply (Outcome.count_set_iff distinct member).1
    intro outcome
    rw [← still.counts, right.counts]
  · intro same
    constructor
    · intro outcome
      rw [Outcome.select_set_same (by rw [same])]
      exact right.counts outcome
    · rw [Outcome.select_set_same (by rw [same])]
      exact right.failures

/-- A report that is counted if it ends its transfer keeps the totals right exactly if it
gives a transfer that has ended no other outcome. -/
theorem Matches.report_iff (right : summary.Matches strings indices statuses) (detail : Detail)
    (distinct : indices.Nodup) (member : index ∈ indices)
    (named : strings index = .ok (detail.source, detail.destination)) :
    (if (statuses index).isTerminal = false ∧ detail.status.isTerminal = true then
        summary.addDetail detail
      else summary).Matches strings indices
        (Outcome.set statuses index ((statuses index).merge detail.status)) ↔
      ((statuses index).isTerminal = true →
        ((statuses index).merge detail.status).outcome? = (statuses index).outcome?) := by
  cases ended : (statuses index).isTerminal with
  | true =>
      rw [if_neg (by simp), right.set_iff distinct member]
      exact ⟨fun same _ => same, fun same => same rfl⟩
  | false =>
      rw [TransferStatus.merge_of_running ended]
      refine ⟨fun _ impossible => Bool.noConfusion impossible, fun _ => ?_⟩
      cases ends : detail.status.isTerminal with
      | true =>
          rw [if_pos ⟨rfl, rfl⟩]
          exact right.addDetail distinct member ended named
      | false =>
          rw [if_neg (by simp), right.set_iff distinct member, outcome_of_running ends,
            outcome_of_running ended]

end Summary

/-! ## Reports -/

structure Report where
  index : UInt32
  status : TransferStatus
  code : Int32
  now : UInt64

def Report.event (report : Report) : Event where
  step := .call report.index (.report report.status report.code)
  now := report.now

namespace Session

def status? (session : Session) (index : UInt32) : Option TransferStatus :=
  match session.takeUp index with
  | .ok assignment => (session.handle.transferStatus session.volume assignment.record).toOption
  | .error _ => none

def withOutcome (session : Session) (outcome : Outcome) : List UInt32 :=
  (Region.indices session.handle.count).filter fun index =>
    (session.status? index).bind TransferStatus.outcome? = some outcome

/-- The snapshot counts the transfers by the outcomes that the plan gives them, modulo the
size of the counters, and lists the strings of those that failed in the plan. -/
def Agrees (session : Session) : Prop :=
  ∀ now, ∃ summary, session.tally.snapshot now = .ok summary ∧
    summary.completed = UInt32.ofNat (session.withOutcome .success).length ∧
    summary.failed = UInt32.ofNat (session.withOutcome .failure).length ∧
    summary.skipped = UInt32.ofNat (session.withOutcome .skipped).length ∧
    (summary.failures.map fun detail => .ok (detail.source, detail.destination)).Perm
      ((session.withOutcome .failure).map (session.handle.strings session.volume))

/-- A report gives a transfer that has ended no other outcome. -/
def KeepsOutcome (session : Session) (report : Report) : Prop :=
  ∀ current, session.status? report.index = some current → current.isTerminal = true →
    (current.merge report.status).outcome? = current.outcome?

theorem mem_indices {count index : UInt32} : index ∈ Region.indices count ↔ index < count := by
  simp only [List.mem_iff_getElem?, Region.getElem?_indices, exists_eq_left]

theorem nodup_indices (count : UInt32) : (Region.indices count).Nodup := by
  rw [Region.indices, List.nodup_iff_pairwise_ne, List.pairwise_map]
  refine List.nodup_range.imp_of_mem ?_
  intro left right leftMember rightMember different same
  have leftSmall : (UInt32.ofNat left).toNat = left :=
    UInt32.toNat_ofNat_of_lt (Nat.lt_trans (List.mem_range.1 leftMember) count.toNat_lt)
  have rightSmall : (UInt32.ofNat right).toNat = right :=
    UInt32.toNat_ofNat_of_lt (Nat.lt_trans (List.mem_range.1 rightMember) count.toNat_lt)
  exact different (leftSmall.symm.trans ((congrArg UInt32.toNat same).trans rightSmall))

/-- The ledger has these statuses in its plan and this summary in its tally. -/
structure Tracks (order : Order) (ledger : Ledger) (statuses : UInt32 → TransferStatus)
    (summary : Summary) : Prop where
  held : ∀ index, index < (Region.ofOrder order).count →
    ledger.region.transferStatus index = .ok (statuses index)
  installed : ledger.tally = .ofSummary summary

variable {session : Session} {ledger : Ledger} {order : Order} {item : Order.Item} {index : UInt32}
variable {statuses : UInt32 → TransferStatus} {summary : Summary}

theorem Stands.count_eq (stands : session.Stands order ledger) (valid : order.Valid) :
    session.handle.count = (Region.ofOrder order).count :=
  stands.shows.count_eq.trans (count_eq_of_keeps stands.kept (Region.keeps_ofOrder valid))

theorem item_of_known (valid : order.Valid) (known : index < (Region.ofOrder order).count) :
    ∃ item, order.items[index.toNat]? = some item :=
  ⟨_, List.getElem?_eq_getElem ((Region.keeps_ofOrder valid).inside known)⟩

theorem status_eq (stands : session.Stands order ledger) (valid : order.Valid)
    (tracks : Tracks order ledger statuses summary)
    (known : index < (Region.ofOrder order).count) :
    session.status? index = some (statuses index) := by
  obtain ⟨item, found⟩ := item_of_known valid known
  rw [status?, stands.takeUp_eq, Ledger.takeUp_eq stands.kept valid found]
  simp only [Ledger.assignmentFor, Handle.transferStatus, stands.shows.view_eq,
    tracks.held index known, Except.toOption]

theorem status_unknown (stands : session.Stands order ledger) (valid : order.Valid)
    (unknown : ¬ index < (Region.ofOrder order).count) : session.status? index = none := by
  have behind : order.items.length ≤ index.toNat := by
    rw [UInt32.lt_iff_toNat_lt, (Region.keeps_ofOrder valid).count] at unknown
    omega
  rw [status?, stands.takeUp_eq, Ledger.takeUp_unknown stands.kept behind]

theorem withOutcome_eq (stands : session.Stands order ledger) (valid : order.Valid)
    (tracks : Tracks order ledger statuses summary) (outcome : Outcome) :
    session.withOutcome outcome =
      Outcome.select (Region.indices (Region.ofOrder order).count) statuses outcome := by
  rw [withOutcome, stands.count_eq valid]
  apply List.filter_congr
  intro index member
  rw [status_eq stands valid tracks (mem_indices.1 member)]
  rfl

theorem strings_eq (stands : session.Stands order ledger) (valid : order.Valid) :
    session.handle.strings session.volume = (Region.ofOrder order).strings := by
  funext index
  have laid := Region.keeps_ofOrder valid
  have count := count_eq_of_keeps stands.kept laid
  rw [Handle.strings, stands.shows.view_eq]
  by_cases known : index < (Region.ofOrder order).count
  · obtain ⟨item, found⟩ := item_of_known valid known
    rw [stands.kept.strings_eq valid found, laid.strings_eq valid found]
  · have unknown := UInt32.not_lt.1 known
    rw [Region.strings_eq_error unknown, Region.strings_eq_error (count ▸ unknown), count]

theorem agrees_iff_matches (stands : session.Stands order ledger) (valid : order.Valid)
    (tracks : Tracks order ledger statuses summary) :
    session.Agrees ↔ summary.Matches (Region.ofOrder order).strings
      (Region.indices (Region.ofOrder order).count) statuses := by
  have selected := withOutcome_eq stands valid tracks
  have named := strings_eq stands valid
  have tally : session.tally = .ofSummary summary := stands.tally.trans tracks.installed
  constructor
  · intro agrees
    obtain ⟨shown, snapshot, completed, failed, skipped, failures⟩ := agrees default
    rw [tally] at snapshot
    cases snapshot
    simp only [selected, named] at completed failed skipped failures
    refine ⟨fun outcome => ?_, failures⟩
    cases outcome with
    | success => exact completed
    | failure => exact failed
    | skipped => exact skipped
  · intro right now
    refine ⟨{ summary with timestamp := now, errorMessage := "" }, by rw [tally]; rfl, ?_⟩
    simp only [selected, named]
    exact ⟨right.counts .success, right.counts .failure, right.counts .skipped, right.failures⟩

theorem perform_report (stands : session.Stands order ledger) (valid : order.Valid)
    (tracks : Tracks order ledger statuses summary) (report : Report)
    (known : report.index < (Region.ofOrder order).count)
    (found : order.items[report.index.toNat]? = some item) :
    ∃ after, (session.perform report.event).2.Stands order after ∧
      Tracks order after
        (Outcome.set statuses report.index ((statuses report.index).merge report.status))
        (if (statuses report.index).isTerminal = false ∧ report.status.isTerminal = true then
          summary.addDetail (Ledger.detailOf item report.status report.code)
        else summary) := by
  obtain ⟨region, called, merged, others⟩ := Ledger.call_eq stands.kept valid found
    (tracks.held _ known) tracks.installed (.report report.status report.code) report.now
  have stood := (stands.call valid report.index (.report report.status report.code) report.now).2
  rw [called] at stood
  refine ⟨_, stood, fun other inside => ?_, rfl⟩
  by_cases here : other = report.index
  · rw [here, Outcome.set_self]
    exact merged
  · rw [Outcome.set, if_neg here]
    exact (others other here).trans (tracks.held other inside)

theorem perform_unknown (stands : session.Stands order ledger) (valid : order.Valid)
    (report : Report) (unknown : ¬ report.index < (Region.ofOrder order).count) :
    (session.perform report.event).2 = session := by
  have behind : order.items.length ≤ report.index.toNat := by
    rw [UInt32.lt_iff_toNat_lt, (Region.keeps_ofOrder valid).count] at unknown
    omega
  simp only [Session.perform, Report.event, Session.call, stands.takeUp_eq,
    Ledger.takeUp_unknown stands.kept behind]

/-- Once plan and tally agree, they go on to agree exactly if the next report keeps the
outcome of a transfer that has ended. -/
theorem agrees_perform_iff (stands : session.Stands order ledger) (valid : order.Valid)
    (tracks : Tracks order ledger statuses summary) (agrees : session.Agrees) (report : Report) :
    (∃ after statuses summary, (session.perform report.event).2.Stands order after ∧
      Tracks order after statuses summary) ∧
    ((session.perform report.event).2.Agrees ↔ session.KeepsOutcome report) := by
  by_cases known : report.index < (Region.ofOrder order).count
  · obtain ⟨item, found⟩ := item_of_known valid known
    obtain ⟨after, stood, tracked⟩ := perform_report stands valid tracks report known found
    refine ⟨⟨after, _, _, stood, tracked⟩, ?_⟩
    have right := (agrees_iff_matches stands valid tracks).1 agrees
    have keeps := right.report_iff (Ledger.detailOf item report.status report.code)
      (nodup_indices _) (mem_indices.2 known) ((Region.keeps_ofOrder valid).strings_eq valid found)
    simp only [KeepsOutcome, status_eq stands valid tracks known, Option.some.injEq, forall_eq']
    exact (agrees_iff_matches stood valid tracked).trans keeps
  · rw [perform_unknown stands valid report known]
    refine ⟨⟨ledger, statuses, summary, stands, tracks⟩, fun _ current held => ?_, fun _ => agrees⟩
    rw [status_unknown stands valid known] at held
    cases held

theorem forall_prefix_cons {α : Type} {first : α} {rest : List α} {property : List α → Prop} :
    (∀ done, done <+: first :: rest → property done) ↔
      property [] ∧ ∀ done, done <+: rest → property (first :: done) := by
  simp only [List.prefix_cons_iff]
  constructor
  · intro every
    exact ⟨every [] (Or.inl rfl), fun done front => every _ (Or.inr ⟨done, rfl, front⟩)⟩
  · rintro ⟨empty, every⟩ done (rfl | ⟨front, rfl, shorter⟩)
    · exact empty
    · exact every front shorter

theorem agrees_run_iff (stands : session.Stands order ledger) (valid : order.Valid)
    (tracks : Tracks order ledger statuses summary) (agrees : session.Agrees)
    (reports : List Report) :
    (∀ done, done <+: reports → (session.run (done.map Report.event)).2.Agrees) ↔
      ∀ done report, done ++ [report] <+: reports →
        (session.run (done.map Report.event)).2.KeepsOutcome report := by
  induction reports generalizing session ledger statuses summary with
  | nil =>
      simp only [List.prefix_nil, forall_eq, List.append_eq_nil_iff, reduceCtorEq, and_false,
        false_implies, implies_true, iff_true]
      exact agrees
  | cons report rest ih =>
      obtain ⟨⟨after, _, _, stood, tracked⟩, step⟩ :=
        agrees_perform_iff stands valid tracks agrees report
      have tail := ih stood tracked
      rw [forall_prefix_cons]
      constructor
      · rintro ⟨_, every⟩ done next front
        have still := every [] (List.nil_prefix)
        cases done with
        | nil =>
            obtain ⟨rfl, _⟩ := List.cons_prefix_cons.1 front
            exact step.1 still
        | cons first later =>
            obtain ⟨rfl, behind⟩ := List.cons_prefix_cons.1 front
            exact (tail still).1 every later next behind
      · intro every
        have still := step.2 (every [] report (List.cons_prefix_cons.2 ⟨rfl, List.nil_prefix⟩))
        refine ⟨agrees, (tail still).2 ?_⟩
        intro done next front
        exact every (report :: done) next (List.cons_prefix_cons.2 ⟨rfl, front⟩)

theorem tracks_ofOrder (valid : order.Valid) (summary : Summary) :
    Tracks order { region := Region.ofOrder order, tally := .ofSummary summary }
      (fun _ => .notStarted) summary where
  held index known := by
    obtain ⟨item, found⟩ := item_of_known valid known
    exact Region.transferStatus_ofOrder valid found
  installed := rfl

theorem matches_fresh (strings : UInt32 → Except Plan.Fault (String × String))
    (indices : List UInt32) (start : Timestamp) (jobId : JobId) :
    (Summary.fresh start jobId).Matches strings indices fun _ => .notStarted := by
  have empty : ∀ outcome, Outcome.select indices (fun _ => .notStarted) outcome = [] :=
    fun outcome => List.filter_eq_nil_iff.2 fun _ _ => by simp [TransferStatus.outcome?]
  constructor
  · intro outcome
    rw [empty]
    cases outcome <;> rfl
  · rw [empty]
    exact .nil

/-- Over any reports of a new job, plan and tally agree after every report exactly as long
as no report gives a transfer that has ended another outcome. -/
theorem agrees_iff_keepsOutcome {start : Timestamp} {jobId : JobId}
    (valid : order.validate = .ok ()) (begins : session.Begins order (.fresh start jobId))
    (reports : List Report) :
    (∀ done, done <+: reports → (session.run (done.map Report.event)).2.Agrees) ↔
      ∀ done report, done ++ [report] <+: reports →
        (session.run (done.map Report.event)).2.KeepsOutcome report := by
  have fits := Plan.Order.validate_eq_ok_iff.1 valid
  have stands := begins.stands fits
  have tracks := tracks_ofOrder fits (.fresh start jobId)
  exact agrees_run_iff stands fits tracks
    ((agrees_iff_matches stands fits tracks).2 (matches_fresh _ _ start jobId)) reports

/-- Plan and tally agree after one transfer of two has failed. -/
theorem agrees_after_failure :
    let order : Order := { items := [{ source := "a", size := 7 }, { source := "b" }] }
    let session : Session := {
      handle := { backing := .memory order.image, count := 2 }
      tally := .ofSummary (.fresh default default) }
    let reports : List Report := [⟨1, .failed, 5, 1⟩]
    order.validate = .ok () ∧ session.Begins order (.fresh default default) ∧
      (session.run (reports.map Report.event)).2.Agrees := by
  intro order session reports
  have valid : order.validate = .ok () := by rfl
  have fits := Plan.Order.validate_eq_ok_iff.1 valid
  have begins : session.Begins order (.fresh default default) :=
    ⟨.inMemory (Handle.createInMemory_eq fits), rfl⟩
  have agrees := (agrees_iff_keepsOutcome valid begins reports).2 ?_
  · exact ⟨valid, begins, agrees _ List.prefix_rfl⟩
  · intro done report front current held ended
    have first : done = [] ∧ report = ⟨1, .failed, 5, 1⟩ := by
      cases done with
      | nil => exact ⟨rfl, (List.cons_prefix_cons.1 front).1⟩
      | cons other rest => simp [reports] at front
    obtain ⟨rfl, rfl⟩ := first
    have known : (1 : UInt32) < (Region.ofOrder order).count := by decide
    have running := status_eq (begins.stands fits) fits (tracks_ofOrder fits _) known
    rw [List.map_nil, Session.run, running] at held
    cases held
    cases ended

/-- A transfer that succeeded and is then reported failed is counted as completed, while
the plan has it as failed. -/
theorem not_agrees_after_late_failure :
    let order : Order := { items := [{ size := 7 }] }
    let session : Session := {
      handle := { backing := .memory order.image, count := 1 }
      tally := .ofSummary (.fresh default default) }
    let reports : List Report := [⟨0, .success, 0, 1⟩, ⟨0, .failed, 5, 2⟩]
    let after := (session.run (reports.map Report.event)).2
    order.validate = .ok () ∧ session.Begins order (.fresh default default) ∧
      after.status? 0 = some .failed ∧
      after.tally = .ofSummary { completed := 1, bytesTransferred := 7 } ∧ ¬ after.Agrees := by
  intro order session reports after
  have valid : order.validate = .ok () := by rfl
  have fits := Plan.Order.validate_eq_ok_iff.1 valid
  have begins : session.Begins order (.fresh default default) :=
    ⟨.inMemory (Handle.createInMemory_eq fits), rfl⟩
  have known : (0 : UInt32) < (Region.ofOrder order).count := by decide
  have found : order.items[(0 : UInt32).toNat]? = some { size := 7 } := rfl
  obtain ⟨_, stood, tracked⟩ := perform_report (begins.stands fits) fits (tracks_ofOrder fits _)
    ⟨0, .success, 0, 1⟩ known found
  obtain ⟨_, stood, tracked⟩ := perform_report stood fits tracked ⟨0, .failed, 5, 2⟩ known found
  rw [← run_singleton_snd, ← run_cons_snd] at stood
  have stood : after.Stands order _ := stood
  have tally := stood.tally.trans tracked.installed
  refine ⟨valid, begins, status_eq stood fits tracked known, tally.trans (by decide),
    fun agrees => ?_⟩
  have counts := ((agrees_iff_matches stood fits tracked).1 agrees).counts .success
  revert counts
  decide

end Session

end TransferLedger
