import TransferLedger.Proofs.Deeds

/-! A plan that is held open through several handles.

Handles on one file show the same region, whichever of them it was written through.  What
is done through them, flushing, releasing and opening again included, writes to the words
of the region and to nothing else.
-/

namespace TransferLedger

open Plan (Order Region Handle)
open Plan.Region (JobWord TransferWords Word)
open Volume (Path Place File)

/-- A plan with the handles that it was given, and the tally of its job. -/
structure Sharing where
  volume : Volume
  /-- The path of the plan, if it is in a file. -/
  path? : Option Path
  handles : List Handle
  tally : Tally

namespace Sharing

/-- What is done through the handle at a position of the list, or with the file. -/
inductive Action where
  | act (which : Nat) (index : UInt32) (deed : Deed)
  | setJobStatus (which : Nat) (status : JobStatus)
  | flush (which : Nat)
  | release (which : Nat)
  /-- Opens the file once more. -/
  | reopen

def through (sharing : Sharing) (which : Nat) (operation : Session → Session) : Sharing :=
  match sharing.handles[which]? with
  | none => sharing
  | some handle =>
      let after := operation { volume := sharing.volume, handle, tally := sharing.tally }
      { sharing with
        volume := after.volume
        handles := sharing.handles.set which after.handle
        tally := after.tally }

def reopen (sharing : Sharing) : Sharing :=
  match sharing.path? with
  | none => sharing
  | some path =>
      match Handle.open sharing.volume path with
      | .error _ => sharing
      | .ok handle => { sharing with handles := sharing.handles ++ [handle] }

def perform (sharing : Sharing) : Action → Sharing
  | .act which index deed => sharing.through which fun session => session.act index deed
  | .setJobStatus which status => sharing.through which fun session =>
      (session.setJobStatus status).2
  | .flush which => sharing.through which fun session =>
      { session with volume := (session.handle.flush session.volume).2 }
  | .release which => sharing.through which fun session =>
      let (handle, volume) := session.handle.release session.volume
      { session with handle, volume }
  | .reopen => sharing.reopen

def run (sharing : Sharing) (actions : List Action) : Sharing :=
  actions.foldl perform sharing

theorem path?_through (sharing : Sharing) (which : Nat) (operation : Session → Session) :
    (sharing.through which operation).path? = sharing.path? := by
  rw [through]
  split <;> rfl

theorem path?_perform (sharing : Sharing) (action : Action) :
    (sharing.perform action).path? = sharing.path? := by
  cases action with
  | act which index deed => exact path?_through sharing which _
  | setJobStatus which status => exact path?_through sharing which _
  | flush which => exact path?_through sharing which _
  | release which => exact path?_through sharing which _
  | reopen =>
      rw [perform, reopen]
      split
      · rfl
      · split <;> rfl

theorem path?_run (sharing : Sharing) (actions : List Action) :
    (sharing.run actions).path? = sharing.path? := by
  induction actions generalizing sharing with
  | nil => rfl
  | cons first rest ih => exact (ih _).trans (path?_perform sharing first)

/-- The positions that an action may write to. -/
def Action.Writes (count : UInt32) : Action → Nat → Prop
  | .act _ index _, position => index < count ∧ TransferWords index position
  | .setJobStatus _ _, position => JobWord position
  | .flush _, _ | .release _, _ | .reopen, _ => False

variable {sharing : Sharing} {region after : Region} {handle : Handle} {which : Nat}

/-- The bytes are in the only handle, or in the file that all handles are windows on. -/
inductive Backed (bytes : ByteArray) : Sharing → Prop where
  | memory {volume : Volume} {handle : Handle} {tally : Tally}
      (held : handle.backing = .memory bytes) :
      Backed bytes { volume, path? := none, handles := [handle], tally }
  | file {volume : Volume} {path : Path} {place : Place} {file : File} {handles : List Handle}
      {tally : Tally} (found : volume.lookup path = .ok (place, .file file))
      (content : file.bytes = bytes)
      (windows : ∀ handle ∈ handles, handle.backing = .file place bytes.size) :
      Backed bytes { volume, path? := some path, handles, tally }

/-- All handles, whether they are released or not, stand on the region. -/
structure Holds (region : Region) (sharing : Sharing) : Prop where
  accepted : Region.ofBytes region.bytes = .ok region
  counts : ∀ handle ∈ sharing.handles, handle.count = region.count
  backed : sharing.Backed region.bytes

theorem Holds.whole (holds : sharing.Holds region) : region.Whole :=
  (Region.whole_of_ofBytes holds.accepted).1

theorem Holds.bytes_eq (holds : sharing.Holds region) (member : handle ∈ sharing.handles) :
    handle.bytes sharing.volume = region.bytes := by
  cases holds.backed with
  | memory held =>
      rw [List.mem_singleton.1 member, Handle.bytes, held]
  | file found content windows =>
      rw [Handle.bytes, windows handle member]
      dsimp only
      rw [Volume.fileAt_of_lookup found, ← content, File.window_size]

theorem Holds.region_eq (holds : sharing.Holds region) (member : handle ∈ sharing.handles)
    (mapped : handle.isMapped = true) : handle.region sharing.volume = .ok region := by
  rw [Handle.region, if_pos mapped, holds.bytes_eq member, holds.counts handle member]

/-! ## Steps -/

theorem forall_mem_set {handles : List Handle} {property : Handle → Prop} {next : Handle}
    (all : ∀ handle ∈ handles, property handle) (new : property next) (which : Nat) :
    ∀ handle ∈ handles.set which next, property handle := by
  intro other among
  rcases List.mem_or_eq_of_mem_set among with before | rfl
  · exact all other before
  · exact new

theorem single_of_getElem? {only : Handle} (found : [only][which]? = some handle) :
    only = handle ∧ ∀ next, [only].set which next = [next] := by
  cases which with
  | zero => exact ⟨Option.some.inj found, fun _ => rfl⟩
  | succ which => cases found

/-- The same handle may be put back with any tally. -/
theorem Holds.idle (holds : sharing.Holds region) (found : sharing.handles[which]? = some handle)
    (tally : Tally) :
    Holds region { sharing with handles := sharing.handles.set which handle, tally } := by
  have same : sharing.handles.set which handle = sharing.handles := by
    obtain ⟨inside, rfl⟩ := List.getElem?_eq_some_iff.1 found
    exact List.set_getElem_self inside
  obtain ⟨accepted, counts, backed⟩ := holds
  rw [same]
  refine ⟨accepted, counts, ?_⟩
  cases backed with
  | memory held => exact .memory held
  | file there content windows => exact .file there content windows

theorem Holds.store (holds : sharing.Holds region) (found : sharing.handles[which]? = some handle)
    (same : region.SameBut (Word region.count) after) (tally : Tally) :
    Holds after { sharing with
      volume := (handle.store sharing.volume after.bytes).2
      handles := sharing.handles.set which (handle.store sharing.volume after.bytes).1
      tally } := by
  have count : (handle.store sharing.volume after.bytes).1.count = handle.count := by
    rw [Handle.store]
    split <;> rfl
  have member := List.mem_of_getElem? found
  obtain ⟨accepted, counts, backed⟩ := holds
  refine ⟨same.ofBytes_eq accepted, ?_, ?_⟩
  · rw [same.count]
    exact forall_mem_set counts (count.trans (counts handle member)) which
  · cases backed with
    | memory held =>
        obtain ⟨rfl, replaced⟩ := single_of_getElem? found
        simp only [Handle.store, held, replaced]
        exact .memory rfl
    | @file volume path place file handles tally there content windows =>
        have window := windows handle member
        have size : after.bytes.size = file.bytes.size := by rw [same.size, content]
        have placed := Volume.lookup_put (Volume.filePlace_of_lookup there)
          (file.store after.bytes)
        simp only [Handle.store, window, Volume.fileAt_of_lookup there]
        refine .file placed (File.bytes_store size) ?_
        rw [same.size]
        exact forall_mem_set windows window which

/-- To flush changes nothing that is shown, and a released handle stands where it stood. -/
theorem Holds.settle (holds : sharing.Holds region)
    (found : sharing.handles[which]? = some handle) (isMapped : Bool) :
    Holds region { sharing with
      volume := handle.settle sharing.volume
      handles := sharing.handles.set which { handle with isMapped } } := by
  have member := List.mem_of_getElem? found
  obtain ⟨accepted, counts, backed⟩ := holds
  have count : ({ handle with isMapped } : Handle).count = region.count := counts handle member
  refine ⟨accepted, forall_mem_set counts count which, ?_⟩
  cases backed with
  | memory held =>
      obtain ⟨rfl, replaced⟩ := single_of_getElem? found
      simp only [Handle.settle, held, replaced]
      exact .memory rfl
  | @file volume path place file handles tally there content windows =>
      have window := windows handle member
      have placed := Volume.lookup_put (Volume.filePlace_of_lookup there) file.flush
      simp only [Handle.settle, window, Volume.fileAt_of_lookup there]
      exact .file placed content (forall_mem_set windows rfl which)

theorem Holds.reopen (holds : sharing.Holds region) : sharing.reopen.Holds region := by
  obtain ⟨accepted, counts, backed⟩ := holds
  cases backed with
  | memory held => exact ⟨accepted, counts, .memory held⟩
  | @file volume path place file handles tally there content windows =>
      have taken := Handle.open_eq there (by rw [content]; exact accepted)
      simp only [Sharing.reopen, taken]
      refine ⟨accepted, fun handle member => ?_, .file there content fun handle member => ?_⟩
      · rcases List.mem_append.1 member with before | this
        · exact counts handle before
        · rw [List.mem_singleton.1 this]
      · rcases List.mem_append.1 member with before | this
        · exact windows handle before
        · rw [List.mem_singleton.1 this, content]

/-- What is done to the session of one handle is done to the plan. -/
theorem Holds.follow {next : Session} {changed : Ledger} (holds : sharing.Holds region)
    (found : sharing.handles[which]? = some handle)
    (same : region.SameBut (Word region.count) changed.region)
    (follows : Session.Follows { volume := sharing.volume, handle, tally := sharing.tally }
      { region, tally := sharing.tally } changed next) :
    Holds changed.region { sharing with
      volume := next.volume
      handles := sharing.handles.set which next.handle
      tally := next.tally } := by
  cases follows with
  | stored => exact holds.store found same changed.tally
  | untouched unchanged =>
      rw [unchanged]
      exact holds.idle found changed.tally

theorem Holds.ledger_eq (holds : sharing.Holds region)
    (found : sharing.handles[which]? = some handle) (mapped : handle.isMapped = true) :
    Session.ledger { volume := sharing.volume, handle, tally := sharing.tally } =
      .ok { region, tally := sharing.tally } :=
  Session.ledger_eq_ok_iff.2 ⟨holds.region_eq (List.mem_of_getElem? found) mapped, rfl⟩

theorem Action.word_of_writes {action : Action} {count : UInt32} {position : Nat}
    (writes : action.Writes count position) : Word count position := by
  cases action with
  | act which index deed => exact Or.inr ⟨index, writes⟩
  | setJobStatus which status => exact Or.inl writes
  | flush which => cases writes
  | release which => cases writes
  | reopen => cases writes

/-- There is a handle at the position, and it is not released. -/
def isOpen (sharing : Sharing) (which : Nat) : Bool :=
  (sharing.handles[which]?.map Handle.isMapped).getD false

theorem isOpen_iff :
    sharing.isOpen which = true ↔
      ∃ handle, sharing.handles[which]? = some handle ∧ handle.isMapped = true := by
  cases found : sharing.handles[which]? with
  | none => simp [isOpen, found]
  | some handle => simp [isOpen, found]

/-- Through an open handle a deed is done as on a ledger. -/
theorem Holds.act_of_isOpen (holds : sharing.Holds region) (reached : sharing.isOpen which = true)
    (index : UInt32) (deed : Deed) :
    (sharing.perform (.act which index deed)).Holds
      (Ledger.act { region, tally := sharing.tally } index deed).region := by
  obtain ⟨handle, found, mapped⟩ := isOpen_iff.1 reached
  have whole : ({ region, tally := sharing.tally } : Ledger).region.Whole := holds.whole
  have words : region.SameBut (Word region.count) _ :=
    (Ledger.sameBut_act whole index deed).mono fun _ inside => Or.inr ⟨index, inside⟩
  have follows := Session.act_follows (holds.ledger_eq found mapped) index deed
  simp only [perform, through, found]
  exact holds.follow found words follows

theorem Holds.act_of_not_isOpen (holds : sharing.Holds region)
    (missed : ¬ sharing.isOpen which = true) (index : UInt32) (deed : Deed) :
    (sharing.perform (.act which index deed)).Holds region := by
  cases found : sharing.handles[which]? with
  | none =>
      simp only [perform, through, found]
      exact holds
  | some handle =>
      have released : handle.isMapped = false :=
        Bool.eq_false_iff.2 fun mapped => missed (isOpen_iff.2 ⟨handle, found, mapped⟩)
      simp only [perform, through, found]
      rw [Session.act_of_released released]
      exact holds.idle found sharing.tally

theorem Holds.act (holds : sharing.Holds region) (which : Nat) (index : UInt32) (deed : Deed) :
    ∃ after, (sharing.perform (.act which index deed)).Holds after ∧
      region.SameBut (fun position => index < region.count ∧ TransferWords index position)
        after := by
  by_cases reached : sharing.isOpen which = true
  · have whole : ({ region, tally := sharing.tally } : Ledger).region.Whole := holds.whole
    exact ⟨_, holds.act_of_isOpen reached index deed, Ledger.sameBut_act whole index deed⟩
  · exact ⟨region, holds.act_of_not_isOpen reached index deed, .refl _ _⟩

theorem Holds.setJobStatus (holds : sharing.Holds region) (which : Nat) (status : JobStatus) :
    ∃ after, (sharing.perform (.setJobStatus which status)).Holds after ∧
      region.SameBut JobWord after := by
  cases found : sharing.handles[which]? with
  | none =>
      simp only [perform, through, found]
      exact ⟨region, holds, .refl _ _⟩
  | some handle =>
      simp only [perform, through, found]
      cases mapped : handle.isMapped with
      | false =>
          rw [Session.setJobStatus_of_released mapped]
          exact ⟨region, holds.idle found sharing.tally, .refl _ _⟩
      | true =>
          have done := Region.setJobStatus_eq holds.whole.long status
          have same := Region.sameBut_setJobStatus holds.whole.long done
          have words : region.SameBut (Word region.count) _ := same.mono fun _ => Or.inl
          have follows := (Session.setJobStatus_follows (holds.ledger_eq found mapped)
            holds.whole.long status).2
          simp only [Ledger.setJobStatus, done] at follows
          exact ⟨_, holds.follow found words follows, same⟩

theorem Holds.flush (holds : sharing.Holds region) (which : Nat) :
    (sharing.perform (.flush which)).Holds region := by
  cases found : sharing.handles[which]? with
  | none =>
      simp only [perform, through, found]
      exact holds
  | some handle =>
      simp only [perform, through, found, Handle.flush, Handle.writeBack_ok]
      split
      · exact holds.settle found handle.isMapped
      · exact holds.idle found sharing.tally

theorem Holds.release (holds : sharing.Holds region) (which : Nat) :
    (sharing.perform (.release which)).Holds region := by
  cases found : sharing.handles[which]? with
  | none =>
      simp only [perform, through, found]
      exact holds
  | some handle =>
      simp only [perform, through, found, Handle.release, Handle.unmap, Handle.writeBack_ok]
      split
      · exact holds.settle found false
      · exact holds.idle found sharing.tally

theorem Holds.perform (holds : sharing.Holds region) (action : Action) :
    ∃ after, (sharing.perform action).Holds after ∧
      region.SameBut (action.Writes region.count) after := by
  cases action with
  | act which index deed => exact holds.act which index deed
  | setJobStatus which status => exact holds.setJobStatus which status
  | flush which => exact ⟨region, holds.flush which, .refl _ _⟩
  | release which => exact ⟨region, holds.release which, .refl _ _⟩
  | reopen => exact ⟨region, holds.reopen, .refl _ _⟩

/-- What some actions may write is all that they change. -/
theorem Holds.run (holds : sharing.Holds region) (actions : List Action) :
    ∃ after, (sharing.run actions).Holds after ∧
      region.SameBut (fun position => ∃ action ∈ actions, action.Writes region.count position)
        after := by
  induction actions generalizing sharing region with
  | nil => exact ⟨region, holds, .refl _ _⟩
  | cons first rest ih =>
      obtain ⟨middle, next, begun⟩ := holds.perform first
      obtain ⟨after, last, rested⟩ := ih next
      rw [begun.count] at rested
      refine ⟨after, last, (begun.mono ?_).trans (rested.mono ?_)⟩
      · exact fun position writes => ⟨first, List.mem_cons_self, writes⟩
      · rintro position ⟨action, member, writes⟩
        exact ⟨action, List.mem_cons_of_mem _ member, writes⟩

/-! ## Runs -/

/-- A plan that was just made or opened, with one handle and any tally. -/
inductive Begins : Sharing → Prop where
  | inMemory {order : Order} {volume : Volume} {handle : Handle} {tally : Tally}
      (done : Handle.createInMemory order = .ok handle) :
      Begins { volume, path? := none, handles := [handle], tally }
  | created {order : Order} {volume written : Volume} {path : Path} {handle : Handle}
      {tally : Tally} (done : Handle.create volume path order = (.ok handle, written)) :
      Begins { volume := written, path? := some path, handles := [handle], tally }
  | opened {volume : Volume} {path : Path} {handle : Handle} {tally : Tally}
      (taken : Handle.open volume path = .ok handle) :
      Begins { volume, path? := some path, handles := [handle], tally }

theorem holds_opened {volume : Volume} {path : Path} {tally : Tally}
    (taken : Handle.open volume path = .ok handle) :
    ∃ region, Holds region { volume, path? := some path, handles := [handle], tally } := by
  obtain ⟨place, file, found⟩ := Handle.lookup_of_open taken
  rw [Handle.open_of_lookup found, bind_eq_ok_iff] at taken
  obtain ⟨region, accepted, made⟩ := taken
  cases made
  obtain ⟨_, same⟩ := Region.whole_of_ofBytes accepted
  refine ⟨region, by rw [same]; exact accepted, fun handle member => ?_,
    .file found same.symm fun handle member => ?_⟩
  · rw [List.mem_singleton.1 member]
  · rw [List.mem_singleton.1 member, same]

theorem Begins.holds (begins : sharing.Begins) : ∃ region, sharing.Holds region := by
  cases begins with
  | @inMemory order volume handle tally done =>
      have valid := Handle.valid_of_createInMemory done
      rw [Handle.createInMemory_eq valid] at done
      cases done
      refine ⟨Region.ofOrder order, (Region.keeps_ofOrder valid).ofBytes_eq valid,
        fun handle member => ?_, .memory rfl⟩
      rw [List.mem_singleton.1 member]
      rfl
  | created done =>
      have valid := Handle.valid_of_create done
      obtain ⟨place, found⟩ := Handle.place_of_create valid done
      rw [Handle.create_eq valid found] at done
      cases done
      exact holds_opened (Handle.open_created valid found)
  | opened taken => exact holds_opened taken

/-- Every handle that is not released shows the region, and the file at the path, if there is
one, holds its bytes. -/
structure Shows (path? : Option Path) (region : Region) (sharing : Sharing) : Prop where
  counts : ∀ handle ∈ sharing.handles, handle.count = region.count
  handles : ∀ handle ∈ sharing.handles, handle.isMapped = true →
    handle.region sharing.volume = .ok region
  file : ∀ path, path? = some path → sharing.volume.read path = .ok region.bytes

theorem Holds.shows (holds : sharing.Holds region) : sharing.Shows sharing.path? region where
  counts := holds.counts
  handles _ member mapped := holds.region_eq member mapped
  file path same := by
    cases holds.backed with
    | memory held => cases same
    | file found content windows =>
        cases same
        rw [Volume.read, found, ok_bind, ← content]

/-- What two handles, each in its volume, tell alike: everything but the status of the job
and the words of the `touched` transfers. -/
structure Alike (touched : UInt32 → Prop) (first : Handle) (volume : Volume) (last : Handle)
    (later : Volume) : Prop where
  count : last.count = first.count
  header : last.header later = first.header volume
  regionLength : last.regionLength later = first.regionLength volume
  record : ∀ index, last.record later index = first.record volume index
  strings : ∀ index, last.strings later index = first.strings volume index
  transferStatus : ∀ record, ¬ touched record.index →
    last.transferStatus later record = first.transferStatus volume record
  completionTime : ∀ record, ¬ touched record.index →
    last.completionTime later record = first.completionTime volume record

/-- The transfers that some actions are about. -/
def Targets (actions : List Action) (index : UInt32) : Prop :=
  ∃ which deed, .act which index deed ∈ actions

theorem not_writes_of_untouched {actions : List Action} {index count : UInt32} {position : Nat}
    (untouched : ¬ Targets actions index) (here : TransferWords index position) :
    ¬ ∃ action ∈ actions, action.Writes count position := by
  rintro ⟨action, member, writes⟩
  cases action with
  | act which other deed =>
      have different : other ≠ index := by
        rintro rfl
        exact untouched ⟨which, deed, member⟩
      exact Region.transferWords_apart different here writes.2
  | setJobStatus which status => exact Region.not_jobWord_of_transferWords here writes
  | flush which => cases writes
  | release which => cases writes
  | reopen => cases writes

theorem alike_of_sameBut {actions : List Action} {first last : Handle} {volume later : Volume}
    (shown : first.region volume = .ok region) (shownLater : last.region later = .ok after)
    (whole : region.Whole)
    (same : region.SameBut
      (fun position => ∃ action ∈ actions, action.Writes region.count position) after) :
    Alike (Targets actions) first volume last later := by
  have words : region.SameBut (Word region.count) after := by
    refine same.mono ?_
    rintro position ⟨action, _, writes⟩
    exact Action.word_of_writes writes
  have before {α : Type} (operation : Region → Except Plan.Fault α) :
      first.view volume operation = operation region := Handle.view_of_region shown operation
  have behind {α : Type} (operation : Region → Except Plan.Fault α) :
      last.view later operation = operation after := Handle.view_of_region shownLater operation
  constructor
  · obtain ⟨_, rfl⟩ := Handle.isMapped_of_region shown
    obtain ⟨_, rfl⟩ := Handle.isMapped_of_region shownLater
    exact same.count
  · rw [Handle.header, Handle.header, before, behind, words.header_eq whole]
  · rw [Handle.regionLength, Handle.regionLength, before, behind, same.size]
  · intro index
    rw [Handle.record, Handle.record, before, behind, words.record_eq whole]
  · intro index
    rw [Handle.strings, Handle.strings, before, behind, words.strings_eq whole]
  · intro record untouched
    rw [Handle.transferStatus, Handle.transferStatus, before, behind,
      same.transferStatus_eq fun _ => not_writes_of_untouched untouched]
  · intro record untouched
    rw [Handle.completionTime, Handle.completionTime, before, behind,
      same.completionTime_eq fun _ => not_writes_of_untouched untouched]

/-- Between any two moments of a run the bytes of the plan change only where the actions in
between may write.  All that is told of the plan at the earlier moment through one handle is
told at the later one through every handle, but for the words of the transfers that the
actions were about and of the job. -/
theorem run_writes_words (begins : sharing.Begins) (earlier later : List Action) :
    ∃ before after : Region,
      (sharing.run earlier).Shows sharing.path? before ∧
      (sharing.run (earlier ++ later)).Shows sharing.path? after ∧
      before.SameBut (fun position => ∃ action ∈ later, action.Writes before.count position)
        after ∧
      ∀ first ∈ (sharing.run earlier).handles, first.isMapped = true →
        ∀ last ∈ (sharing.run (earlier ++ later)).handles, last.isMapped = true →
          Alike (Targets later) first (sharing.run earlier).volume last
            (sharing.run (earlier ++ later)).volume := by
  obtain ⟨start, holds⟩ := begins.holds
  obtain ⟨before, held, _⟩ := holds.run earlier
  obtain ⟨after, ends, same⟩ := held.run later
  have shown := held.shows
  have shownLater := ends.shows
  rw [path?_run] at shown
  rw [path?_run, path?_run] at shownLater
  have joined : sharing.run (earlier ++ later) = (sharing.run earlier).run later :=
    List.foldl_append
  rw [joined]
  refine ⟨before, after, shown, shownLater, same, ?_⟩
  intro first member mapped last memberLater mappedLater
  exact alike_of_sameBut (held.region_eq member mapped) (ends.region_eq memberLater mappedLater)
    held.whole same

/-- A plan in a file that is opened a second time.  Through the second handle the job is
paused and a transfer fails, and the first one is released. -/
theorem run_writes_words_reopened :
    let order : Order := {
      items := [{ source := "a", size := 7 }, { source := "é", destination := "b" }] }
    let path : Path := { parts := ["plan"] }
    let place : Place := { depth := 1, names := ["plan"] }
    let sharing : Sharing := {
      volume := ({} : Volume).put place (.file { bytes := order.image }), path? := some path
      handles := [{ backing := .file place order.image.size, count := 2 }], tally := {} }
    let actions : List Action := [.reopen, .setJobStatus 1 .paused,
      .act 1 0 (.call (.report .failed 5) 9), .release 0]
    sharing.Begins ∧
      ∃ bytes, (sharing.run actions).volume.read path = .ok bytes ∧
        ∀ position, ¬ (1596 ≤ position ∧ position < 1600) →
          ¬ (1632 ≤ position ∧ position < 1644) →
          Bytes.slice bytes position 1 = Bytes.slice order.image position 1 := by
  intro order path place sharing actions
  have valid : order.Valid := Order.validate_eq_ok_iff.1 rfl
  have free : ({} : Volume).filePlace path = .ok place := rfl
  have begins : sharing.Begins := .created (Handle.create_eq valid free)
  obtain ⟨before, after, shown, shownLater, same, _⟩ := run_writes_words begins [] actions
  have laid : sharing.volume.read path = .ok order.image := by
    have there : sharing.volume.lookup path = .ok (place, .file { bytes := order.image }) :=
      Volume.lookup_put free _
    rw [Volume.read, there, ok_bind]
  have start := shown.file path rfl
  have image : before.bytes = order.image := Except.ok.inj (start.symm.trans laid)
  refine ⟨begins, after.bytes, shownLater.file path rfl, fun position job words => ?_⟩
  rw [← image]
  refine same.bytes position ?_
  rintro ⟨action, member, writes⟩
  simp only [actions, List.mem_cons, List.not_mem_nil, or_false] at member
  rcases member with rfl | rfl | rfl | rfl
  · cases writes
  · exact job writes
  · exact words writes.2
  · cases writes

end Sharing

end TransferLedger
