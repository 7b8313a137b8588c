import TransferLedger.Proofs.Alike
import TransferLedger.Proofs.Summary

/-! Runs that are cut and taken up again from their files.

While a plan is in a file, that file and the totals are all there is to a session.
A hand-over writes the totals down and reads both back, so what goes on afterwards is
the same session but for the time and the message of its totals, which no step looks
at.
-/

namespace TransferLedger

open Plan (Order Region Handle)
open Volume (Path Place)

/-- What is done with a session: a step of the run, or a break after which the run is
taken up again. -/
inductive Move where
  | perform (event : Event)
  | handOver (now : Timestamp)

namespace Move

def step? : Move → Option Step
  | perform event => some event.step
  | handOver _ => none

/-- The clock is not at zero, and its date has a year of four digits. -/
def Timely : Move → Prop
  | perform event => event.now ≠ 0
  | handOver now => 0 ≤ now.date.year ∧ now.date.year ≤ 9999

instance : (move : Move) → Decidable move.Timely
  | perform event => inferInstanceAs (Decidable (event.now ≠ 0))
  | handOver now => inferInstanceAs (Decidable (0 ≤ now.date.year ∧ now.date.year ≤ 9999))

end Move

namespace Session

/-- Puts the run away and takes it up from its files. -/
def handOver (session : Session) (planPath summaryPath : Path) (now : Timestamp) :
    Except HandoverFault Session := do
  let suspended ← session.suspend summaryPath now
  resume suspended.volume planPath summaryPath suspended.tuning

/-- The answers to the steps among some moves, and the session after them. -/
def play (session : Session) (planPath summaryPath : Path) :
    List Move → Except HandoverFault (List Answer × Session)
  | [] => .ok ([], session)
  | .perform event :: rest => do
      let (answers, last) ← (session.perform event).2.play planPath summaryPath rest
      .ok ((session.perform event).1 :: answers, last)
  | .handOver now :: rest => do
      (← session.handOver planPath summaryPath now).play planPath summaryPath rest

/-- The session of a ledger whose plan is in a file and has no bytes anywhere else. -/
def onFile (volume : Volume) (place : Place) (tuning : Tuning) (ledger : Ledger) : Session where
  volume := volume.put place (.file { bytes := ledger.region.bytes })
  handle := { backing := .file place ledger.region.bytes.size, count := ledger.region.count }
  tally := ledger.tally
  tuning := tuning

variable {volume saved : Volume} {place : Place} {tuning : Tuning} {ledger after twin : Ledger}
variable {order : Order} {planPath summaryPath : Path} {summary : Summary} {next : Session}
variable {events : List Event} {moves : List Move} {now : Timestamp}

/-! ## Steps -/

theorem onFile_stands (named : place ≠ .root) (kept : ledger.region.Keeps order) :
    (onFile volume place tuning ledger).Stands order ledger :=
  ⟨Handle.shows_file named, kept, rfl⟩

theorem onFile_keep (named : place ≠ .root) (count : after.region.count = ledger.region.count)
    (size : after.region.bytes.size = ledger.region.bytes.size) :
    (onFile volume place tuning ledger).keep after = onFile volume place tuning after := by
  simp only [keep, onFile, Handle.store, Handle.fileAt_put named, Handle.store_whole size,
    Volume.put_put, count, size]

theorem onFile_follow (named : place ≠ .root) (kept : ledger.region.Keeps order)
    (keptAfter : after.region.Keeps order)
    (follows : (onFile volume place tuning ledger).Follows ledger after next) :
    next = onFile volume place tuning after := by
  cases follows with
  | stored =>
      exact onFile_keep named (count_eq_of_keeps keptAfter kept)
        (keptAfter.size.trans kept.size.symm)
  | untouched same =>
      simp only [onFile, same]

theorem onFile_perform (named : place ≠ .root) (valid : order.Valid)
    (kept : ledger.region.Keeps order) (event : Event) :
    (onFile volume place tuning ledger).perform event =
      ((ledger.perform event).1, onFile volume place tuning (ledger.perform event).2) := by
  obtain ⟨answer, follows⟩ := (onFile_stands named kept).perform_follows valid event
  exact Prod.ext answer
    (onFile_follow named kept (Ledger.keeps_perform kept valid event) follows)

theorem onFile_run (named : place ≠ .root) (valid : order.Valid)
    (kept : ledger.region.Keeps order) (events : List Event) :
    (onFile volume place tuning ledger).run events =
      ((ledger.run events).1, onFile volume place tuning (ledger.run events).2) := by
  induction events generalizing ledger with
  | nil => rfl
  | cons event rest ih =>
      simp only [Session.run, Ledger.run, onFile_perform named valid kept,
        ih (Ledger.keeps_perform kept valid event)]

/-! ## Hand-overs -/

theorem onFile_suspend (installed : ledger.tally = .ofSummary summary)
    (written : (summary.dated now).save (volume.put place (.file { bytes := ledger.region.bytes }))
      summaryPath = (.ok (), saved))
    (held : saved.node? place = some (.file { bytes := ledger.region.bytes })) :
    (onFile volume place tuning ledger).suspend summaryPath now =
      .ok {
        volume := saved.put place (.file { bytes := ledger.region.bytes })
        handle := {
          backing := .file place ledger.region.bytes.size
          count := ledger.region.count
          isMapped := false }
        tally := ledger.tally
        tuning := tuning } := by
  have snapshot : ledger.tally.snapshot now = .ok (summary.dated now) := by
    rw [installed]
    rfl
  have there : saved.fileAt place = { bytes := ledger.region.bytes } := by
    rw [Volume.fileAt, held]
  simp only [suspend, onFile, snapshot, mapError_ok, ok_bind, written, Handle.release_eq,
    if_true, Handle.settle, there, Volume.File.flush]

theorem onFile_resume (valid : order.Valid) (kept : ledger.region.Keeps order)
    (positive : 0 ≤ summary.timestamp.date.year) (small : summary.timestamp.date.year ≤ 9999)
    (isSaved : Volume.Saved planPath summaryPath place ledger.region.bytes
      summary.toJson.pretty.toUTF8 volume) :
    resume (volume.put place (.file { bytes := ledger.region.bytes })) planPath summaryPath tuning =
      .ok (onFile volume place tuning { ledger with tally := .ofSummary summary }) := by
  have named := Volume.ne_root_of_filePlace isSaved.found
  have grown := Volume.extends_put_again isSaved.held named
  have there := Volume.lookup_put isSaved.found { bytes := ledger.region.bytes }
  have opened := Handle.open_eq there (kept.ofBytes_eq valid)
  have loaded := Summary.load_eq positive small (grown.read isSaved.read)
  rw [resume, opened, mapError_ok, ok_bind, loaded, mapError_ok, ok_bind]
  rfl

/-- After a hand-over the session is what it was, with the totals as they were saved. -/
theorem onFile_handOver (valid : order.Valid) (kept : ledger.region.Keeps order)
    (found : volume.filePlace planPath = .ok place)
    (beside : volume.SavesBeside planPath summaryPath)
    (installed : ledger.tally = .ofSummary summary)
    (positive : 0 ≤ now.date.year) (small : now.date.year ≤ 9999) :
    ∃ saved, saved.filePlace planPath = .ok place ∧ saved.SavesBeside planPath summaryPath ∧
      (onFile volume place tuning ledger).handOver planPath summaryPath now =
        .ok (onFile saved place tuning
          { ledger with tally := .ofSummary (summary.dated now) }) := by
  obtain ⟨saved, written, isSaved⟩ := beside.save found ledger.region.bytes
    (summary.dated now).toJson.pretty.toUTF8
  refine ⟨saved, isSaved.found, isSaved.again, ?_⟩
  rw [handOver, onFile_suspend installed written isSaved.held, ok_bind]
  exact onFile_resume valid kept positive small isSaved

/-! ## Runs -/

/-- A run that is cut gives the answers of the whole run and ends in a session of an
alike ledger. -/
theorem onFile_play (valid : order.Valid) (alike : ledger.Alike order twin)
    (found : volume.filePlace planPath = .ok place)
    (beside : volume.SavesBeside planPath summaryPath)
    (timely : ∀ move ∈ moves, move.Timely) (runs : ∀ event ∈ events, event.now ≠ 0)
    (same : moves.filterMap Move.step? = events.map Event.step) :
    ∃ saved after, saved.filePlace planPath = .ok place ∧
      (onFile volume place tuning ledger).play planPath summaryPath moves =
        .ok ((twin.run events).1, onFile saved place tuning after) ∧
      after.Alike order (twin.run events).2 := by
  have named := Volume.ne_root_of_filePlace found
  -- A step moves both ledgers; a hand-over changes the files and the totals of the cut run only.
  induction moves generalizing volume ledger twin events with
  | nil =>
      cases events with
      | nil => exact ⟨volume, ledger, found, rfl, alike⟩
      | cons event rest => cases same
  | cons move rest ih =>
      have timelyRest : ∀ move ∈ rest, move.Timely :=
        fun later member => timely later (List.mem_cons_of_mem _ member)
      have soon := timely move List.mem_cons_self
      cases move with
      | perform event =>
          cases events with
          | nil => cases same
          | cons other others =>
              obtain ⟨step, now⟩ := event
              obtain ⟨_, whole⟩ := other
              obtain ⟨rfl, sameRest⟩ := List.cons.inj same
              have runsRest : ∀ event ∈ others, event.now ≠ 0 :=
                fun later member => runs later (List.mem_cons_of_mem _ member)
              obtain ⟨answer, stillAlike⟩ :=
                alike.perform valid soon (runs _ List.mem_cons_self) step
              obtain ⟨saved, after, still, played, ends⟩ :=
                ih stillAlike found beside timelyRest runsRest sameRest
              refine ⟨saved, after, still, ?_, ends⟩
              rw [play, onFile_perform named valid alike.kept]
              dsimp only
              rw [played, ok_bind, answer]
              rfl
      | handOver now =>
          obtain ⟨one, other, installed, installedToo, shown⟩ := alike.tallies
          obtain ⟨saved, still, again, done⟩ := onFile_handOver valid alike.kept found beside
            installed soon.1 soon.2
          have stillAlike : Ledger.Alike order
              { ledger with tally := .ofSummary (one.dated now) } twin :=
            ⟨alike.kept, alike.keptToo, alike.regions, _, _, rfl, installedToo, shown⟩
          obtain ⟨last, after, lastFound, played, ends⟩ :=
            ih stillAlike still again timelyRest runs same
          refine ⟨last, after, lastFound, ?_, ends⟩
          rw [play, done, ok_bind]
          exact played

/-- The sessions hold the same plan but for its stamps, also in the file, and show the same
totals. -/
structure Resembles (planPath : Path) (session twin : Session) : Prop where
  plans : ∃ plan twinPlan, plan.SameButStamps twinPlan ∧
    session.handle.region session.volume = .ok plan ∧
    session.volume.read planPath = .ok plan.bytes ∧
    twin.handle.region twin.volume = .ok twinPlan ∧
    twin.volume.read planPath = .ok twinPlan.bytes
  totals : ∀ now, ∃ summary, session.tally.snapshot now = .ok summary ∧
    twin.tally.snapshot now = .ok summary

theorem onFile_read (found : volume.filePlace planPath = .ok place) :
    (onFile volume place tuning ledger).volume.read planPath = .ok ledger.region.bytes := by
  have free := (Volume.filePlace_eq_ok_iff.1 found).2.2
  have named := Volume.ne_root_of_filePlace found
  exact Volume.read_of_filePlace (Volume.filePlace_put free _ found)
    (Volume.node?_put_self named _ _)

theorem onFile_resembles (alike : ledger.Alike order twin)
    (found : saved.filePlace planPath = .ok place)
    (foundToo : volume.filePlace planPath = .ok place) :
    (onFile saved place tuning ledger).Resembles planPath (onFile volume place tuning twin) := by
  have named := Volume.ne_root_of_filePlace found
  constructor
  · exact ⟨_, _, alike.regions, (onFile_stands named alike.kept).shows.region, onFile_read found,
      (onFile_stands named alike.keptToo).shows.region, onFile_read foundToo⟩
  · intro now
    obtain ⟨one, other, installed, installedToo, same⟩ := alike.tallies
    refine ⟨other.dated now, ?_, ?_⟩
    · rw [← same now, onFile, installed]
      rfl
    · rw [onFile, installedToo]
      rfl

variable {session : Session} {seed : Summary}

/-- A run that is handed over any number of times, anywhere, goes like the run that is
not.  It never fails to be taken up, every step has the same answer, and what is left at
the end differs only in the times at which transfers were stamped.  An assignment is the
same whenever it is taken up.  The two runs need not read the same clock. -/
theorem play_resembles_run (valid : order.validate = .ok ())
    (made : Handle.create volume planPath order = (.ok session.handle, session.volume))
    (installed : session.tally = .ofSummary seed)
    (beside : volume.SavesBeside planPath summaryPath)
    (timely : ∀ move ∈ moves, move.Timely) (runs : ∀ event ∈ events, event.now ≠ 0)
    (same : moves.filterMap Move.step? = events.map Event.step) :
    ∃ last, session.play planPath summaryPath moves = .ok ((session.run events).1, last) ∧
      last.Resembles planPath (session.run events).2 ∧
      ∀ index, last.takeUp index = session.takeUp index := by
  have fits := Plan.Order.validate_eq_ok_iff.1 valid
  obtain ⟨place, found⟩ := Handle.place_of_create fits made
  have named := Volume.ne_root_of_filePlace found
  have kept := Region.keeps_ofOrder fits
  rw [Handle.create_eq fits found, Prod.mk.injEq, Except.ok.injEq] at made
  have begins : session = onFile volume place session.tuning
      { region := Region.ofOrder order, tally := .ofSummary seed } := by
    obtain ⟨handle, laid⟩ := made
    cases session
    cases handle
    cases laid
    cases installed
    rfl
  generalize session.tuning = tuning at begins
  subst begins
  have alike : Ledger.Alike order { region := Region.ofOrder order, tally := .ofSummary seed }
      { region := Region.ofOrder order, tally := .ofSummary seed } :=
    ⟨kept, kept, .refl _, seed, seed, rfl, rfl, fun _ => rfl⟩
  obtain ⟨saved, after, still, played, ends⟩ := onFile_play fits alike found beside timely runs same
  rw [onFile_run named fits kept]
  refine ⟨_, played, onFile_resembles ends still found, fun index => ?_⟩
  rw [(onFile_stands named ends.kept).takeUp_eq, (onFile_stands named kept).takeUp_eq]
  exact Ledger.takeUp_congr ends.kept kept fits index

/-- A transfer that is started and ended, with a hand-over before, between and after.  The
directory of the totals is made by the first. -/
theorem oneTransfer_resembles :
    let order : Order := { items := [{ source := "a", destination := "b", size := 7 }] }
    let start : Step := .call 0 .start
    let success : Step := .call 0 (.report .success 0)
    ∃ session : Session,
      Handle.create {} { parts := ["plan"] } order = (.ok session.handle, session.volume) ∧
      ∃ last, session.play { parts := ["plan"] } { parts := ["saved", "summary"] }
          [.handOver .epoch, .perform ⟨start, 1⟩, .handOver .epoch, .perform ⟨success, 2⟩,
            .handOver .epoch] = .ok ((session.run [⟨start, 3⟩, ⟨success, 4⟩]).1, last) ∧
        last.Resembles { parts := ["plan"] } (session.run [⟨start, 3⟩, ⟨success, 4⟩]).2 ∧
        ∀ index, last.takeUp index = session.takeUp index := by
  intro order start success
  have valid : order.validate = .ok () := by rfl
  have made := Handle.create_eq (Plan.Order.validate_eq_ok_iff.1 valid)
    (rfl : ({} : Volume).filePlace { parts := ["plan"] } = .ok { depth := 1, names := ["plan"] })
  have beside : ({} : Volume).SavesBeside { parts := ["plan"] }
      { parts := ["saved", "summary"] } := by
    intro plan summary laid done
    cases done
    exact ⟨_, rfl, rfl⟩
  refine ⟨{ volume := _, handle := _, tally := .ofSummary {} }, made, ?_⟩
  exact play_resembles_run valid made rfl beside (by decide) (by decide) rfl

end Session

end TransferLedger
