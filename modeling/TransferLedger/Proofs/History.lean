import TransferLedger.Proofs.Lifecycle
import TransferLedger.Proofs.Sharing

/-! Histories of a transfer in a plan that is held open through several handles.

The words may hold anything at first.  Whatever is done with the transfer, and through
whichever handle, they hold in the end what follows from these words and from the deeds
that came to the transfer, and every deed is told what the words were when it came.
-/

namespace TransferLedger

/-! ## Replies -/

theorem Plan.Handle.isMapped_store (handle : Plan.Handle) (volume : Volume) (bytes : ByteArray) :
    (handle.store volume bytes).1.isMapped = handle.isMapped := by
  rw [Plan.Handle.store]
  split <;> rfl

/-- What the caller of a deed is told. -/
inductive Deed.Reply where
  | changed (transition : Plan.Transition)
  | stamped (first : Bool)
  | inEffect (status : TransferStatus)
  deriving DecidableEq

/-- What a deed is told that is not a report. -/
def Plan.Words.reply (words : Plan.Words) : Deed → Deed.Reply
  | .update status => .changed (words.transition status)
  | .stamp _ => .stamped (words.time = 0)
  | .call made _ => .inEffect (words.transition made.status).current

namespace Session

open Plan (Region Handle Words)

/-- What is told when a deed is done. -/
def reply (session : Session) (index : UInt32) : Deed → Except TransferFault Deed.Reply
  | .update status => do
      let record ← (session.handle.record session.volume index).mapError TransferFault.plan
      let transition ← (session.handle.updateStatus session.volume record status).1.mapError
        TransferFault.plan
      .ok (.changed transition)
  | .stamp nanos => do
      let record ← (session.handle.record session.volume index).mapError TransferFault.plan
      let first ← (session.handle.stampCompletion session.volume record nanos).1.mapError
        TransferFault.plan
      .ok (.stamped first)
  | .call call now => (session.call index call now).1.map Deed.Reply.inEffect

variable {session : Session} {ledger : Ledger} {index : UInt32}

theorem record_eq (taken : session.ledger = .ok ledger)
    (accepted : Region.ofBytes ledger.region.bytes = .ok ledger.region)
    (known : index < ledger.region.count) :
    ∃ record, session.handle.record session.volume index = .ok record ∧ record.index = index := by
  have shown := (ledger_eq_ok_iff.1 taken).1
  have whole := (Region.whole_of_ofBytes accepted).1
  exact ⟨_, (Handle.view_of_region shown _).trans (whole.record_eq known), rfl⟩

theorem reply_eq (taken : session.ledger = .ok ledger)
    (accepted : Region.ofBytes ledger.region.bytes = .ok ledger.region)
    (known : index < ledger.region.count) (deed : Deed)
    (unreported : ∀ status code now, deed ≠ .call (.report status code) now) :
    session.reply index deed = .ok ((ledger.region.words index).reply deed) := by
  have shown := (ledger_eq_ok_iff.1 taken).1
  obtain ⟨record, found, rfl⟩ := record_eq taken accepted known
  cases deed with
  | update status =>
      have updated := Handle.update_of_region shown fun region =>
        region.updateStatus record.index status
      rw [reply, found, mapError_ok, ok_bind, Handle.updateStatus, updated, mapError_ok, ok_bind,
        Region.updateStatus_words, Words.reply]
  | stamp nanos =>
      have updated := Handle.update_of_region shown fun region =>
        region.stampCompletion record.index nanos
      rw [reply, found, mapError_ok, ok_bind, Handle.stampCompletion, updated, mapError_ok, ok_bind,
        Region.stampCompletion_fst, Words.reply]
  | call call now =>
      cases call with
      | start =>
          obtain ⟨assignment, begun, same⟩ := Ledger.takeUp_of_accepted accepted known
          have told := (call_follows taken record.index .start now).1
          rw [reply, told]
          simp only [Ledger.call, begun, Ledger.start, same, Region.updateStatus_words, map_ok,
            Words.reply, Call.status]
      | report status code => exact absurd rfl (unreported status code now)

theorem isMapped_of_follows {after : Ledger} {next : Session}
    (follows : session.Follows ledger after next) :
    next.handle.isMapped = session.handle.isMapped := by
  cases follows with
  | stored => exact Handle.isMapped_store _ _ _
  | untouched same => rfl

theorem ledger_of_isMapped (mapped : session.handle.isMapped = true) :
    ∃ ledger, session.ledger = .ok ledger :=
  ⟨{ region := _, tally := session.tally }, ledger_eq_ok_iff.2 ⟨if_pos mapped, rfl⟩⟩

theorem isMapped_act (session : Session) (index : UInt32) (deed : Deed) :
    (session.act index deed).handle.isMapped = session.handle.isMapped := by
  cases mapped : session.handle.isMapped with
  | false => rw [act_of_released mapped, mapped]
  | true =>
      obtain ⟨ledger, taken⟩ := ledger_of_isMapped mapped
      rw [isMapped_of_follows (act_follows taken index deed), mapped]

theorem isMapped_setJobStatus (session : Session) (status : JobStatus) :
    (session.setJobStatus status).2.handle.isMapped = session.handle.isMapped := by
  simp only [setJobStatus, Handle.setJobStatus, Handle.update]
  split
  · rfl
  · exact Handle.isMapped_store _ _ _

end Session

namespace Sharing

open Plan (Order Region Handle Words)
open Plan.Region (TransferWords Word)
open Volume (Path Place)

variable {sharing : Sharing} {region : Region} {index : UInt32} {which : Nat}
variable {handle next : Handle} {handles : List Handle}

/-! ## Open handles -/

/-- Which handles are open. -/
def flags (sharing : Sharing) : List Bool :=
  sharing.handles.map Handle.isMapped

/-- Which handles are open after an action on a plan that is stored in a file or not. -/
def Action.flagsAfter (stored : Bool) (flags : List Bool) : Action → List Bool
  | .release which => flags.set which false
  | .reopen => if stored then flags ++ [true] else flags
  | .act _ _ _ | .setJobStatus _ _ | .flush _ => flags

theorem isOpen_iff_flags : sharing.isOpen which = true ↔ sharing.flags[which]? = some true := by
  rw [flags, List.getElem?_map, isOpen]
  cases sharing.handles[which]?.map Handle.isMapped <;> simp

theorem flags_set (found : handles[which]? = some handle)
    (same : next.isMapped = handle.isMapped) :
    (handles.set which next).map Handle.isMapped = handles.map Handle.isMapped := by
  obtain ⟨inside, rfl⟩ := List.getElem?_eq_some_iff.1 found
  have still : which < (handles.map Handle.isMapped).length := by
    rw [List.length_map]
    exact inside
  have flag : (handles.map Handle.isMapped)[which] = handles[which].isMapped := List.getElem_map _
  rw [List.map_set, same, ← flag, List.set_getElem_self]

theorem flags_through {operation : Session → Session}
    (keeps : ∀ session, (operation session).handle.isMapped = session.handle.isMapped)
    (sharing : Sharing) (which : Nat) :
    (sharing.through which operation).flags = sharing.flags := by
  rw [through]
  cases found : sharing.handles[which]? with
  | none => rfl
  | some handle => exact flags_set found (keeps _)

/-- A plan in a file can always be opened again. -/
theorem Holds.flags_reopen (holds : sharing.Holds region) :
    sharing.reopen.flags =
      if sharing.path?.isSome = true then sharing.flags ++ [true] else sharing.flags := by
  obtain ⟨accepted, counts, backed⟩ := holds
  cases backed with
  | memory held => rfl
  | file found content windows =>
      have taken := Handle.open_eq found (by rw [content]; exact accepted)
      simp only [Sharing.reopen, taken, flags, List.map_append]
      rfl

theorem flags_release (sharing : Sharing) (which : Nat) :
    (sharing.perform (.release which)).flags = sharing.flags.set which false := by
  rw [perform, through]
  cases found : sharing.handles[which]? with
  | none =>
      have outside := List.getElem?_eq_none_iff.1 found
      rw [List.set_eq_of_length_le (by rw [flags, List.length_map]; exact outside)]
  | some handle =>
      simp only [flags, Handle.release_eq, List.map_set]

theorem Holds.flags_perform (holds : sharing.Holds region) (action : Action) :
    (sharing.perform action).flags = action.flagsAfter sharing.path?.isSome sharing.flags := by
  cases action with
  | act which index deed => exact flags_through (fun session => session.isMapped_act index deed) _ _
  | setJobStatus which status =>
      exact flags_through (fun session => session.isMapped_setJobStatus status) _ _
  | flush which =>
      have keeps (session : Session) :
          { session with volume := (session.handle.flush session.volume).2 }.handle.isMapped =
            session.handle.isMapped := rfl
      exact flags_through keeps _ _
  | release which => exact flags_release sharing which
  | reopen => exact holds.flags_reopen

/-! ## Whole histories -/

/-- The deed of an action, if it comes to the transfer through an open handle. -/
def Action.reaching? (flags : List Bool) (index : UInt32) : Action → Option Deed
  | .act which other deed =>
      if other = index ∧ flags[which]? = some true then some deed else none
  | .setJobStatus _ _ | .flush _ | .release _ | .reopen => none

/-- The deeds that come to the transfer in turn, through whichever handles. -/
def reaching (stored : Bool) (index : UInt32) (flags : List Bool) : List Action → List Deed
  | [] => []
  | action :: rest =>
      (action.reaching? flags index).toList ++
        reaching stored index (action.flagsAfter stored flags) rest

def deeds (sharing : Sharing) (index : UInt32) (actions : List Action) : List Deed :=
  reaching sharing.path?.isSome index sharing.flags actions

def reply? (sharing : Sharing) (which : Nat) (index : UInt32) (deed : Deed) :
    Option (Except TransferFault Deed.Reply) :=
  sharing.handles[which]?.map fun handle =>
    Session.reply { volume := sharing.volume, handle, tally := sharing.tally } index deed

/-- Every handle that is not released reads these words in the record of the transfer. -/
def Reads (sharing : Sharing) (index : UInt32) (words : Words) : Prop :=
  ∀ handle ∈ sharing.handles, handle.isMapped = true → ∃ record,
    handle.record sharing.volume index = .ok record ∧
    handle.transferStatus sharing.volume record = Plan.known words.code ∧
    handle.completionTime sharing.volume record = .ok words.time

theorem Holds.reads (holds : sharing.Holds region) (known : index < region.count) :
    sharing.Reads index (region.words index) := by
  intro handle member mapped
  have shown := holds.region_eq member mapped
  refine ⟨_, (Handle.view_of_region shown _).trans (holds.whole.record_eq known), ?_, ?_⟩
  · rw [Handle.transferStatus, Handle.view_of_region shown, Region.transferStatus, Region.words]
  · rw [Handle.completionTime, Handle.view_of_region shown, Region.words]

theorem Holds.reply_eq (holds : sharing.Holds region) (known : index < region.count)
    (reached : sharing.isOpen which = true) (deed : Deed)
    (unreported : ∀ status code now, deed ≠ .call (.report status code) now) :
    sharing.reply? which index deed = some (.ok ((region.words index).reply deed)) := by
  obtain ⟨handle, found, mapped⟩ := isOpen_iff.1 reached
  have told := Session.reply_eq (holds.ledger_eq found mapped) holds.accepted known deed unreported
  rw [reply?, found, Option.map_some, told]

/-- Through an open handle a deed writes to the words of its transfer. -/
theorem Holds.act_writes (holds : sharing.Holds region) (known : index < region.count)
    (reached : sharing.isOpen which = true) (deed : Deed) :
    ∃ after, (sharing.perform (.act which index deed)).Holds after ∧
      region.SameBut (TransferWords index) after ∧
      after.words index = (region.words index).act deed := by
  have accepted : Region.ofBytes ({ region, tally := sharing.tally } : Ledger).region.bytes =
      .ok region := holds.accepted
  have whole : ({ region, tally := sharing.tally } : Ledger).region.Whole := holds.whole
  have same := Ledger.sameBut_act whole index deed
  exact ⟨_, holds.act_of_isOpen reached index deed, same.mono fun _ inside => inside.2,
    Ledger.words_act accepted known deed⟩

theorem Holds.perform_words (holds : sharing.Holds region) (known : index < region.count)
    (action : Action) :
    ∃ after, (sharing.perform action).Holds after ∧ after.count = region.count ∧
      after.words index =
        (region.words index).after (action.reaching? sharing.flags index).toList := by
  cases action with
  | act which other deed =>
      rw [Action.reaching?]
      by_cases here : other = index
      · subst here
        by_cases reached : sharing.isOpen which = true
        · obtain ⟨after, next, same, words⟩ := holds.act_writes known reached deed
          refine ⟨after, next, same.count, ?_⟩
          rw [if_pos ⟨rfl, isOpen_iff_flags.1 reached⟩, words]
          exact (Words.after_singleton _ deed).symm
        · rw [if_neg fun both => reached (isOpen_iff_flags.2 both.2), Option.toList_none,
            Words.after_nil]
          exact ⟨region, holds.act_of_not_isOpen reached other deed, rfl, rfl⟩
      · obtain ⟨after, next, same⟩ := holds.act which other deed
        refine ⟨after, next, same.count, ?_⟩
        rw [if_neg fun both => here both.1, Option.toList_none, Words.after_nil]
        exact same.words_eq fun position inside touched =>
          Region.transferWords_apart here inside touched.2
  | setJobStatus which status =>
      obtain ⟨after, next, same⟩ := holds.setJobStatus which status
      refine ⟨after, next, same.count, ?_⟩
      rw [Action.reaching?, Option.toList_none, Words.after_nil]
      exact same.words_eq fun position => Region.not_jobWord_of_transferWords
  | flush which => exact ⟨region, holds.flush which, rfl, (Words.after_nil _).symm⟩
  | release which => exact ⟨region, holds.release which, rfl, (Words.after_nil _).symm⟩
  | reopen => exact ⟨region, holds.reopen, rfl, (Words.after_nil _).symm⟩

theorem Holds.run_words (holds : sharing.Holds region) (known : index < region.count)
    (actions : List Action) :
    ∃ after, (sharing.run actions).Holds after ∧ after.count = region.count ∧
      after.words index = (region.words index).after (sharing.deeds index actions) := by
  induction actions generalizing sharing region with
  | nil => exact ⟨region, holds, rfl, (Words.after_nil _).symm⟩
  | cons first rest ih =>
      obtain ⟨middle, next, count, begun⟩ := holds.perform_words known first
      obtain ⟨after, last, same, rested⟩ := ih next (by rw [count]; exact known)
      refine ⟨after, last, same.trans count, ?_⟩
      rw [rested, begun, ← Words.after_append, deeds, deeds, path?_perform, holds.flags_perform]
      rfl

theorem Begins.exists_handle (begins : sharing.Begins) : ∃ handle, handle ∈ sharing.handles := by
  cases begins <;> exact ⟨_, List.mem_singleton_self _⟩

theorem run_append_singleton (sharing : Sharing) (actions : List Action) (action : Action) :
    sharing.run (actions ++ [action]) = (sharing.run actions).perform action :=
  List.foldl_append

/-- After any actions, through any handles and with the plan released and opened again in
between, the words of a transfer are those that the deeds which came to it make of the
first ones.  An update tells the status before it and the one that is read after it, and a
stamp whether it was the first. -/
theorem run_reads (begins : sharing.Begins)
    (known : ∀ handle ∈ sharing.handles, index < handle.count) :
    ∃ words, sharing.Reads index words ∧ ∀ actions,
      (sharing.run actions).Reads index (words.after (sharing.deeds index actions)) ∧
      ∀ which, (sharing.run actions).isOpen which = true →
        (∀ status, ∃ current,
          (sharing.run actions).reply? which index (.update status) = some (.ok (.changed {
            previous := (words.after (sharing.deeds index actions)).status?, current })) ∧
          (sharing.run (actions ++ [.act which index (.update status)])).Reads index
            { code := current.code, time := (words.after (sharing.deeds index actions)).time }) ∧
        (∀ now, ∃ current,
          (sharing.run actions).reply? which index (.call .start now) =
            some (.ok (.inEffect current)) ∧
          (sharing.run (actions ++ [.act which index (.call .start now)])).Reads index
            { code := current.code, time := (words.after (sharing.deeds index actions)).time }) ∧
        ∀ nanos, (sharing.run actions).reply? which index (.stamp nanos) =
          some (.ok (.stamped (decide ((words.after (sharing.deeds index actions)).time = 0)))) := by
  obtain ⟨region, holds⟩ := begins.holds
  have counted : index < region.count := by
    obtain ⟨handle, member⟩ := begins.exists_handle
    rw [← holds.counts handle member]
    exact known handle member
  refine ⟨region.words index, holds.reads counted, fun actions => ?_⟩
  obtain ⟨after, ends, count, words⟩ := holds.run_words counted actions
  have still : index < after.count := by rw [count]; exact counted
  -- From here on nothing depends on how the words came about.
  generalize (region.words index).after (sharing.deeds index actions) = current at words ⊢
  have shown := ends.reads still
  rw [words] at shown
  refine ⟨shown, fun which reached => ?_⟩
  have told (deed : Deed) (unreported : ∀ status code now, deed ≠ .call (.report status code) now) :
      (sharing.run actions).reply? which index deed = some (.ok (current.reply deed)) := by
    rw [ends.reply_eq still reached deed unreported, words]
  have reads (deed : Deed) :
      (sharing.run (actions ++ [.act which index deed])).Reads index (current.act deed) := by
    obtain ⟨last, done, same, written⟩ := ends.perform_words still (.act which index deed)
    rw [Action.reaching?, if_pos ⟨rfl, isOpen_iff_flags.1 reached⟩, Option.toList_some,
      Words.after_singleton, words] at written
    rw [run_append_singleton, ← written]
    exact done.reads (by rw [same]; exact still)
  refine ⟨fun status => ?_, fun now => ?_, fun nanos => ?_⟩
  · have next := reads (.update status)
    rw [Words.act_update] at next
    exact ⟨(current.transition status).current, told (.update status) (by intros; nofun), next⟩
  · have next := reads (.call .start now)
    rw [Words.act_start, Words.act_update] at next
    exact ⟨(current.transition .started).current, told (.call .start now) (by intros; nofun), next⟩
  · exact told (.stamp nanos) (by intros; nofun)

/-- A plan whose first status word is damaged.  The transfer succeeds, is stamped through a
second handle, fails there and is started again, while the first handle is released and
another transfer fails. -/
theorem run_reads_damaged :
    let order : Order := { items := [{ source := "a", size := 7 }, { source := "b" }] }
    let bytes := Bytes.splice order.image 1640 ⟨#[123, 0, 0, 0]⟩
    let path : Path := { parts := ["plan"] }
    let place : Place := { depth := 1, names := ["plan"] }
    let sharing : Sharing := {
      volume := ({} : Volume).put place (.file { bytes }), path? := some path
      handles := [{ backing := .file place bytes.size, count := 2 }], tally := {} }
    let actions : List Action := [.act 0 0 (.update .success), .act 0 0 (.stamp 0), .reopen,
      .release 0, .act 0 0 (.update .cancelled), .act 1 1 (.call (.report .failed 5) 9),
      .act 1 0 (.stamp 4), .act 1 0 (.update .failed), .act 1 0 (.call .start 1),
      .act 1 0 (.stamp 6)]
    sharing.Begins ∧
      (∃ current, sharing.reply? 0 0 (.update .success) =
        some (.ok (.changed { previous := none, current }))) ∧
      ∀ handle ∈ (sharing.run actions).handles, handle.isMapped = true → ∃ record,
        handle.record (sharing.run actions).volume 0 = .ok record ∧
        handle.transferStatus (sharing.run actions).volume record = .ok .failed ∧
        handle.completionTime (sharing.run actions).volume record = .ok 4 := by
  intro order bytes path place sharing actions
  have valid : order.Valid := Order.validate_eq_ok_iff.1 rfl
  have laid := Region.keeps_ofOrder valid
  have long : order.image.size = 1698 := Order.size_image valid.header
  let garbage : ByteArray := ⟨#[123, 0, 0, 0]⟩
  have width : garbage.size = 4 := rfl
  have within : 1640 + garbage.size ≤ order.image.size := by
    rw [long, width]
    decide
  have damaged : (Region.ofOrder order).SameBut (Word (Region.ofOrder order).count)
      { count := 2, bytes } := by
    have patched : (Region.ofOrder order).SameBut
        (fun position => 1640 ≤ position ∧ position < 1640 + garbage.size) { count := 2, bytes } :=
      Region.sameBut_splice within
    refine patched.mono fun position inside => Or.inr ⟨0, by decide, ?_⟩
    rw [width] at inside
    have zero : (0 : UInt32).toNat = 0 := rfl
    rw [TransferWords, zero]
    omega
  have accepted : Region.ofBytes bytes = .ok { count := 2, bytes } :=
    damaged.ofBytes_eq (laid.ofBytes_eq valid)
  have free : ({} : Volume).filePlace path = .ok place := rfl
  have there : sharing.volume.lookup path = .ok (place, .file { bytes }) :=
    Volume.lookup_put free { bytes }
  have opened := Handle.open_eq there accepted
  have begins : sharing.Begins := .opened opened
  have named : place ≠ .root := by decide
  have shown : Handle.Shows { backing := .file place bytes.size, count := 2 } sharing.volume
      { count := 2, bytes } := Handle.shows_file named
  have blank : Region.completionTime { count := 2, bytes } 0 = 0 := by
    have apart : Bytes.slice bytes 1632 8 = Bytes.slice order.image 1632 8 :=
      Bytes.slice_splice_of_le within (by decide)
    have first : order.items[(0 : UInt32).toNat]? = some { source := "a", size := 7 } := rfl
    have fresh := Region.completionTime_ofOrder valid first
    rw [Region.completionTime, Region.completionTimeAt_eq] at fresh ⊢
    exact (congrArg (fun word => UInt64.ofNat (Bytes.LittleEndian.decode word)) apart).trans fresh
  have unknown : (Region.transferStatus { count := 2, bytes } 0).toOption = none := by
    have written : Bytes.slice bytes 1640 4 = garbage := Bytes.slice_splice_self within
    have code : Region.statusCode { count := 2, bytes } 0 = 123 := by
      rw [Region.statusCode, Region.transferStatusAt_eq]
      exact congrArg (fun word => (UInt32.ofNat (Bytes.LittleEndian.decode word)).toInt32.toInt)
        written
    rw [Region.transferStatus, code]
    rfl
  have known : ∀ handle ∈ sharing.handles, (0 : UInt32) < handle.count := by decide
  obtain ⟨words, first, later⟩ := run_reads begins known
  obtain ⟨record, taken, status, time⟩ := first _ (List.mem_singleton_self _) rfl
  have whole := (Region.whole_of_ofBytes accepted).1
  rw [Handle.record, shown.view_eq] at taken
  obtain ⟨_, same⟩ := Region.index_of_record whole taken
  rw [Handle.transferStatus, shown.view_eq, same] at status
  rw [Handle.completionTime, shown.view_eq, same, blank] at time
  have before : words.status? = none := by rw [Words.status?, ← status, unknown]
  have zero : words.time = 0 := (Except.ok.inj time).symm
  refine ⟨begins, ?_, ?_⟩
  · obtain ⟨current, told, _⟩ := ((later []).2 0 rfl).1 .success
    have start : words.after (sharing.deeds 0 []) = words := Words.after_nil words
    rw [start, before] at told
    exact ⟨current, told⟩
  · have deeds : sharing.deeds 0 actions = [.update .success, .stamp 0, .stamp 4,
        .update .failed, .call .start 1, .stamp 6] := by decide
    have ends := (later actions).1
    rw [deeds] at ends
    have last : words.after [.update .success, .stamp 0, .stamp 4, .update .failed,
        .call .start 1, .stamp 6] = { code := -1, time := 4 } := by
      rw [Words.after, if_pos (Or.inr (by decide)), if_pos zero]
      rfl
    rw [last] at ends
    exact ends

end Sharing

end TransferLedger
