import TransferLedger.Proofs.History
import TransferLedger.Proofs.Inspection

/-! Plans that lie open side by side, and those of them that were released.

Handles may be windows on one file or on different ones, and plans are made, opened and
overwritten while others lie open.  A handle that was released answers whatever it is asked
without looking at the plan, and nothing that is asked of it is seen by anyone else: the
others go on as if the questions had not been put.
-/

namespace TransferLedger

open Plan (Order Header Record Handle Fault)
open Volume (Path Place File SameBytes)

/-- A handle with the path that it was given. -/
structure Held where
  path? : Option Path
  handle : Handle

def Held.released (held : Held) : Held :=
  { held with handle := { held.handle with isMapped := false } }

/-- What a handle is asked. -/
inductive Use where
  | header
  | jobStatus
  | setJobStatus (status : JobStatus)
  | regionLength
  | record (index : UInt32)
  | records
  | strings (index : UInt32)
  | takeUp (index : UInt32)
  /-- Something is done with one transfer, if its record or its assignment can be had. -/
  | act (index : UInt32) (deed : Deed)
  /-- The bytes are written back, and the system says whether they were. -/
  | flush (said : Except Volume.Fault Unit)
  | release (said : Except Volume.Fault Unit)
  | isMapped
  | count
  | path

namespace Use

abbrev Answer : Use → Type
  | header => Except Fault Header
  | jobStatus => Except Fault JobStatus
  | setJobStatus _ | flush _ | release _ => Except Fault Unit
  | regionLength => Except Fault Nat
  | record _ => Except Fault Record
  | records => List (Except Fault Record)
  | strings _ => Except Fault (String × String)
  | takeUp _ => Except TransferFault Assignment
  | act _ _ => Unit
  | isMapped => Bool
  | count => UInt32
  | path => Option Path

def perform (path? : Option Path) (session : Session) : (use : Use) → use.Answer × Session
  | header => (session.handle.header session.volume, session)
  | jobStatus => (session.handle.jobStatus session.volume, session)
  | setJobStatus status =>
      let (result, handle, volume) := session.handle.setJobStatus session.volume status
      (result, { session with handle, volume })
  | regionLength => (session.handle.regionLength session.volume, session)
  | record index => (session.handle.record session.volume index, session)
  | records => (session.handle.records session.volume, session)
  | strings index => (session.handle.strings session.volume index, session)
  | takeUp index => (session.takeUp index, session)
  | act index deed => ((), session.act index deed)
  | flush said =>
      let (result, volume) := session.handle.flush session.volume said
      (result, { session with volume })
  | release said =>
      let (result, handle, volume) := session.handle.unmap session.volume said
      (result, { session with handle, volume })
  | isMapped => (session.handle.isMapped, session)
  | count => (session.handle.count, session)
  | path => (path?, session)

/-- What a released handle answers. -/
def refusal (held : Held) : (use : Use) → use.Answer
  | header | jobStatus | setJobStatus _ | regionLength | record _ | strings _ | flush _ =>
      .error .unmapped
  | records => List.replicate held.handle.count.toNat (.error .unmapped)
  | takeUp _ => .error (.plan .unmapped)
  | act _ _ => ()
  | release _ => .ok ()
  | isMapped => false
  | count => held.handle.count
  | path => held.path?

end Use

structure Desk where
  volume : Volume := {}
  held : List Held := []
  tally : Tally := {}

namespace Desk

def session (desk : Desk) (held : Held) : Session :=
  { volume := desk.volume, handle := held.handle, tally := desk.tally }

/-- What the handle at a position of the list would answer. -/
def answer? (desk : Desk) (which : Nat) (use : Use) : Option use.Answer :=
  desk.held[which]?.map fun held => (use.perform held.path? (desk.session held)).1

def use (desk : Desk) (which : Nat) (use : Use) : Desk :=
  match desk.held[which]? with
  | none => desk
  | some held =>
      let after := (use.perform held.path? (desk.session held)).2
      { volume := after.volume
        held := desk.held.set which { held with handle := after.handle }
        tally := after.tally }

inductive Step where
  | use (which : Nat) (use : Use)
  | create (path : Path) (order : Order)
  | createInMemory (order : Order)
  | «open» (path : Path)
  /-- Bytes of a file are overwritten by someone who holds no handle. -/
  | overwrite (path : Path) (offset : Nat) (patch : ByteArray)

def Step.which? : Step → Option Nat
  | .use which _ => some which
  | .create _ _ | .createInMemory _ | .open _ | .overwrite _ _ _ => none

def perform (desk : Desk) : Step → Desk
  | .use which use => desk.use which use
  | .create path order =>
      match Handle.create desk.volume path order with
      | (.ok handle, volume) =>
          { desk with volume, held := desk.held ++ [{ path? := some path, handle }] }
      | (.error _, volume) => { desk with volume }
  | .createInMemory order =>
      match Handle.createInMemory order with
      | .ok handle => { desk with held := desk.held ++ [{ path? := none, handle }] }
      | .error _ => desk
  | .open path =>
      match Handle.open desk.volume path with
      | .ok handle => { desk with held := desk.held ++ [{ path? := some path, handle }] }
      | .error _ => desk
  | .overwrite path offset patch =>
      match desk.volume.overwrite path offset patch with
      | .ok volume => { desk with volume }
      | .error _ => desk

def run (desk : Desk) (steps : List Step) : Desk :=
  steps.foldl perform desk

end Desk

/-! ## Released handles -/

theorem Use.perform_of_released {session : Session} (released : session.handle.isMapped = false)
    (path? : Option Path) (use : Use) :
    use.perform path? session = (use.refusal { path?, handle := session.handle }, session) := by
  have none := Session.region_of_released released
  have viewed {α : Type} (operation : Plan.Region → Except Fault α) :
      session.handle.view session.volume operation = .error .unmapped := by
    rw [Handle.view, none, error_bind]
  cases use with
  | header => exact Prod.ext (viewed _) rfl
  | jobStatus => exact Prod.ext (viewed _) rfl
  | setJobStatus status => simp only [perform, Handle.setJobStatus, Handle.update, viewed]; rfl
  | regionLength => exact Prod.ext (viewed _) rfl
  | record index => exact Prod.ext (viewed _) rfl
  | records =>
      have each : session.handle.record session.volume = fun _ => .error .unmapped :=
        funext fun _ => viewed _
      have answers : session.handle.records session.volume =
          List.replicate session.handle.count.toNat (.error .unmapped) := by
        rw [Handle.records, each, List.map_const', Plan.Region.indices, List.length_map,
          List.length_range]
      exact Prod.ext answers rfl
  | strings index => exact Prod.ext (viewed _) rfl
  | takeUp index =>
      simp only [perform, Session.takeUp, Session.ledger, none, mapError_error, error_bind]
      rfl
  | act index deed => exact Prod.ext rfl (Session.act_of_released released index deed)
  | flush said =>
      simp only [perform, Handle.flush, released]
      rfl
  | release said =>
      simp only [perform, Handle.unmap, released]
      rfl
  | isMapped => exact Prod.ext released rfl
  | count => rfl
  | path => rfl

namespace Desk

variable {desk : Desk} {which : Nat} {held : Held} {steps : List Step}

theorem answer?_of_released (found : desk.held[which]? = some held)
    (released : held.handle.isMapped = false) (use : Use) :
    desk.answer? which use = some (use.refusal held) := by
  have refused : use.perform held.path? (desk.session held) =
      (use.refusal held, desk.session held) := Use.perform_of_released released held.path? use
  rw [answer?, found, Option.map_some, refused]

theorem use_of_released (found : desk.held[which]? = some held)
    (released : held.handle.isMapped = false) (use : Use) : desk.use which use = desk := by
  have refused : use.perform held.path? (desk.session held) =
      (use.refusal held, desk.session held) := Use.perform_of_released released held.path? use
  have same : desk.held.set which held = desk.held := by
    obtain ⟨inside, rfl⟩ := List.getElem?_eq_some_iff.1 found
    exact List.set_getElem_self inside
  rw [Desk.use, found]
  dsimp only
  rw [refused]
  change { desk with held := desk.held.set which held } = desk
  rw [same]

/-- Only what is asked of a handle itself can change it. -/
theorem held_perform {step : Step} (found : desk.held[which]? = some held)
    (other : step.which? ≠ some which) : (desk.perform step).held[which]? = some held := by
  have added (new : Held) : (desk.held ++ [new])[which]? = some held := by
    obtain ⟨inside, _⟩ := List.getElem?_eq_some_iff.1 found
    rw [List.getElem?_append_left inside, found]
  cases step with
  | use one use =>
      have different : one ≠ which := fun same => other (congrArg some same)
      rw [perform, Desk.use]
      split
      · exact found
      · rw [← found]
        exact List.getElem?_set_ne different
  | create path order =>
      rw [perform]
      split
      · exact added _
      · exact found
  | createInMemory order =>
      rw [perform]
      split
      · exact added _
      · exact found
  | «open» path =>
      rw [perform]
      split
      · exact added _
      · exact found
  | overwrite path offset patch =>
      rw [perform]
      split
      · exact found
      · exact found

theorem held_run_pair {first second : Step} (found : (desk.perform first).held[which]? = some held)
    (other : second.which? ≠ some which) : (desk.run [first, second]).held[which]? = some held :=
  held_perform found other

/-- A step that asks something of a released handle is no step at all. -/
theorem perform_of_released {step : Step} (found : desk.held[which]? = some held)
    (released : held.handle.isMapped = false) (mine : step.which? = some which) :
    desk.perform step = desk := by
  cases step with
  | use one use =>
      cases mine
      exact use_of_released found released use
  | create path order => cases mine
  | createInMemory order => cases mine
  | «open» path => cases mine
  | overwrite path offset patch => cases mine

theorem held_run (found : desk.held[which]? = some held) (released : held.handle.isMapped = false)
    (steps : List Step) : (desk.run steps).held[which]? = some held := by
  induction steps generalizing desk with
  | nil => exact found
  | cons first rest ih =>
      change ((desk.perform first).run rest).held[which]? = some held
      by_cases mine : first.which? = some which
      · rw [perform_of_released found released mine]
        exact ih found
      · exact ih (held_perform found mine)

/-- The desk is as if nothing had been asked of the released handle. -/
theorem run_purged (found : desk.held[which]? = some held)
    (released : held.handle.isMapped = false) (steps : List Step) :
    desk.run steps = desk.run (steps.filter fun step => step.which? ≠ some which) := by
  induction steps generalizing desk with
  | nil => rfl
  | cons first rest ih =>
      change (desk.perform first).run rest = _
      by_cases mine : first.which? = some which
      · have dropped : (first :: rest).filter (fun step => step.which? ≠ some which) =
            rest.filter fun step => step.which? ≠ some which := by simp [mine]
        rw [perform_of_released found released mine, dropped]
        exact ih found
      · have kept : (first :: rest).filter (fun step => step.which? ≠ some which) =
            first :: rest.filter fun step => step.which? ≠ some which := by simp [mine]
        rw [kept]
        exact ih (held_perform found mine)

end Desk

/-! ## What a handle shows -/

/-- What is answered depends on what the handle shows, not on what else is in the volume. -/
theorem Use.perform_congr {volume other : Volume} {handle : Handle}
    (same : handle.region other = handle.region volume) (path? : Option Path) (tally : Tally)
    (use : Use) :
    (use.perform path? { volume := other, handle, tally }).1 =
      (use.perform path? { volume, handle, tally }).1 := by
  have viewed {α : Type} (operation : Plan.Region → Except Fault α) :
      handle.view other operation = handle.view volume operation := by
    rw [Handle.view, Handle.view, same]
  cases use with
  | header => exact viewed _
  | jobStatus => exact viewed _
  | setJobStatus status =>
      simp only [perform, Handle.setJobStatus, Handle.update, viewed]
      split
      · rfl
      · rfl
  | regionLength => exact viewed _
  | record index => exact viewed _
  | records =>
      have each : handle.record other = handle.record volume := funext fun _ => viewed _
      simp only [perform, Handle.records, each]
  | strings index => exact viewed _
  | takeUp index => simp only [perform, Session.takeUp, Session.ledger, same]
  | act index deed => rfl
  | flush said =>
      simp only [perform, Handle.flush]
      split
      · exact handle.writeBack_fst other volume said
      · rfl
  | release said =>
      simp only [perform, Handle.unmap]
      split
      · exact handle.writeBack_fst other volume said
      · rfl
  | isMapped => rfl
  | count => rfl
  | path => rfl

namespace Volume

variable {volume : Volume} {place other : Place} {file : File}

def HasFile (volume : Volume) (place : Place) : Prop :=
  ∃ file, volume.node? place = some (.file file)

theorem HasFile.named (has : volume.HasFile place) : place ≠ .root := by
  obtain ⟨file, held⟩ := has
  exact ne_root_of_node? (by rw [held]; nofun)

theorem HasFile.put (has : volume.HasFile other) (place : Place) (file : File) :
    (volume.put place (.file file)).HasFile other := by
  by_cases same : other = place
  · exact ⟨file, by rw [← same, node?_put_self has.named]⟩
  · obtain ⟨content, held⟩ := has
    exact ⟨content, by rw [node?_put_of_ne same, held]⟩

theorem fileAt_put_of_ne (different : other ≠ place) (volume : Volume) (node : Node) :
    (volume.put place node).fileAt other = volume.fileAt other := by
  simp only [fileAt, node?_put_of_ne different]

theorem fileAt_root (volume : Volume) : volume.fileAt .root = { bytes := .empty } := by
  simp only [fileAt, node?, if_true]

/-- Files stay, and none gets shorter. -/
structure Grows (before after : Volume) : Prop where
  files : ∀ place, before.HasFile place → after.HasFile place
  sizes : ∀ place, (before.fileAt place).bytes.size ≤ (after.fileAt place).bytes.size

theorem Grows.refl (volume : Volume) : Grows volume volume :=
  ⟨fun _ has => has, fun _ => Nat.le_refl _⟩

theorem grows_put (longer : (volume.fileAt place).bytes.size ≤ file.bytes.size) :
    Grows volume (volume.put place (.file file)) := by
  refine ⟨fun other has => has.put place file, fun other => ?_⟩
  by_cases here : other = place
  · subst here
    by_cases root : other = .root
    · exact Nat.le_of_eq (by rw [root, fileAt_root, fileAt_root])
    · rw [Plan.Handle.fileAt_put root]
      exact longer
  · exact Nat.le_of_eq (by rw [fileAt_put_of_ne here])

theorem fileAt_of_not_hasFile (none : ¬ volume.HasFile place) :
    volume.fileAt place = { bytes := .empty } := by
  rw [fileAt]
  split
  · rename_i file held
    exact absurd ⟨file, held⟩ none
  · rfl

theorem File.le_size_overwrite (file : File) (offset : Nat) (patch : ByteArray) :
    file.bytes.size ≤ (file.overwrite offset patch).bytes.size := by
  rw [overwrite]
  split
  · exact Nat.le_refl _
  · have room := Bytes.le_size_padTo (offset + patch.size) file.bytes
    dsimp only
    rw [Bytes.size_splice room.1]
    exact room.2

theorem grows_overwrite {path : Path} {offset : Nat} {patch : ByteArray} {after : Volume}
    (done : volume.overwrite path offset patch = .ok after) : Grows volume after := by
  obtain ⟨⟨place, node⟩, found, written⟩ := bind_eq_ok_iff.1 done
  cases node with
  | file file =>
      cases written
      have longer := File.le_size_overwrite file offset patch
      exact grows_put (by rwa [fileAt_of_lookup found])
  | directory => cases written

theorem File.window_flush {length : Nat} (inside : length ≤ file.bytes.size) :
    file.flush.window length = file.window length := by
  have whole {beyond : ByteArray} :
      Bytes.slice (file.bytes ++ beyond) 0 length = Bytes.slice file.bytes 0 length :=
    Bytes.slice_append_left (by omega)
  rw [window, window, Bytes.resize, Bytes.resize, flush, whole, whole]

end Volume

namespace Plan.Handle

variable {volume : Volume} {handle other : Handle}

/-- Where the handle is a window on, there is a file. -/
def Grounded (handle : Handle) (volume : Volume) : Prop :=
  ∀ place length, handle.backing = .file place length → volume.HasFile place

theorem sameBytes_settle (grounded : handle.Grounded volume) :
    SameBytes volume (handle.settle volume) := by
  rw [settle]
  split
  · exact .refl volume
  · rename_i place length backing
    have has := grounded place length backing
    intro target
    by_cases same : target = place
    · obtain ⟨file, held⟩ := has
      rw [same, Volume.node?_put_self (Volume.HasFile.named ⟨file, held⟩), Volume.fileAt, held]
      rfl
    · rw [Volume.node?_put_of_ne same]

/-- If the handle is a window, its file reaches at least to its end. -/
def Inside (handle : Handle) (volume : Volume) : Prop :=
  ∀ place length, handle.backing = .file place length →
    length ≤ (volume.fileAt place).bytes.size

/-- A handle that was opened shows its file from end to end. -/
theorem fills_of_open {path : Path} {place : Place} {length : Nat}
    (taken : Handle.open volume path = .ok handle) (backing : handle.backing = .file place length) :
    volume.HasFile place ∧ length = (volume.fileAt place).bytes.size := by
  obtain ⟨there, file, region, found, rfl, _⟩ := file_of_open taken
  cases backing
  exact ⟨⟨file, (Volume.lookup_eq_ok_iff.1 found).2.1⟩, by rw [Volume.fileAt_of_lookup found]⟩

theorem region_settle (grounded : handle.Grounded volume) (inside : other.Inside volume) :
    other.region (handle.settle volume) = other.region volume := by
  have shown : other.bytes (handle.settle volume) = other.bytes volume := by
    rw [settle]
    split
    · rfl
    · rename_i place length backing
      have named := (grounded place length backing).named
      rw [bytes, bytes]
      split
      · rfl
      · rename_i there window looks
        by_cases same : there = place
        · subst same
          rw [fileAt_put named, Volume.File.window_flush (inside there window looks)]
        · rw [Volume.fileAt_put_of_ne same]
  rw [region, region, shown]

theorem sameBytes_writeBack (grounded : handle.Grounded volume)
    (said : Except Volume.Fault Unit) : SameBytes volume (handle.writeBack volume said).2 := by
  rcases handle.writeBack_cases volume said with settled | kept
  · rw [settled]
    exact sameBytes_settle grounded
  · rw [kept]
    exact .refl volume

theorem region_writeBack (grounded : handle.Grounded volume) (inside : other.Inside volume)
    (said : Except Volume.Fault Unit) :
    other.region (handle.writeBack volume said).2 = other.region volume := by
  rcases handle.writeBack_cases volume said with settled | kept
  · rw [settled]
    exact region_settle grounded inside
  · rw [kept]

theorem open_of_sameBytes {before after : Volume} (same : SameBytes before after) (path : Path) :
    Handle.open after path = Handle.open before path := by
  simp only [Handle.open, Volume.lookup, same.resolve, same.checkDirectory]
  cases before.resolve path with
  | error fault => rfl
  | ok place =>
      rcases same.cases place with ⟨held, now⟩ | ⟨held, now⟩ | ⟨_, _, held, now, bytes⟩
      · rw [ok_bind, ok_bind, held, now]
      · rw [ok_bind, ok_bind, held, now]
      · rw [ok_bind, ok_bind, held, now]
        split
        · cases before.checkDirectory place with
          | error fault => rfl
          | ok _ => simp only [ok_bind, mapError_ok, bytes]
        · simp only [ok_bind, mapError_ok, bytes]

theorem create_cases (volume : Volume) (path : Path) (order : Order) :
    (∃ fault, create volume path order = (.error fault, volume)) ∨
    ∃ place count, volume.filePlace path = .ok place ∧ create volume path order =
      (.ok { backing := .file place order.image.size, count },
        volume.put place (.file { bytes := order.image })) := by
  cases checked : order.validate with
  | error fault => exact .inl ⟨fault, by simp only [create, checked]⟩
  | ok _ =>
      have valid := Order.validate_eq_ok_iff.1 checked
      cases found : volume.filePlace path with
      | ok place => exact .inr ⟨place, _, rfl, create_eq valid found⟩
      | error fault =>
          refine .inl ⟨.io fault, ?_⟩
          simp only [create, checked, Order.count_eq_ok valid.count, Order.regionLength_eq valid,
            found]

end Plan.Handle

namespace Session

variable {session : Session}

/-- The handle is a window on what it was a window on, and files are as long as they were. -/
structure Stays (before after : Session) : Prop where
  backing : ∀ place length, after.handle.backing = .file place length →
    before.handle.backing = .file place length
  volume : before.volume.Grows after.volume

theorem Stays.refl (session : Session) : Stays session session :=
  ⟨fun _ _ same => same, .refl _⟩

theorem stays_store (bytes : ByteArray) (tally : Tally) :
    Stays session { session with
      handle := (session.handle.store session.volume bytes).1
      volume := (session.handle.store session.volume bytes).2
      tally } := by
  constructor
  · intro place length backing
    rw [Handle.store] at backing
    split at backing
    · cases backing
    · exact backing
  · rw [Handle.store]
    split
    · exact .refl _
    · exact Volume.grows_put (Nat.le_of_eq (Volume.File.size_store _ _).symm)

theorem stays_writeBack (said : Except Volume.Fault Unit) (isMapped : Bool) :
    Stays session { session with
      handle := { session.handle with isMapped }
      volume := (session.handle.writeBack session.volume said).2 } := by
  refine ⟨fun _ _ same => same, ?_⟩
  rcases session.handle.writeBack_cases session.volume said with settled | kept
  · rw [settled, Handle.settle]
    split
    · exact .refl _
    · exact Volume.grows_put (Nat.le_refl _)
  · rw [kept]
    exact .refl _

theorem stays_of_follows {ledger after : Ledger} {next : Session}
    (follows : session.Follows ledger after next) : Stays session next := by
  cases follows with
  | stored => exact stays_store _ _
  | untouched same => exact ⟨fun _ _ same => same, .refl _⟩

theorem stays_act (session : Session) (index : UInt32) (deed : Deed) :
    Stays session (session.act index deed) := by
  cases mapped : session.handle.isMapped with
  | false =>
      rw [act_of_released mapped]
      exact .refl session
  | true =>
      obtain ⟨ledger, taken⟩ := ledger_of_isMapped mapped
      exact stays_of_follows (act_follows taken index deed)

theorem stays_perform (path? : Option Path) (session : Session) (use : Use) :
    Stays session (use.perform path? session).2 := by
  cases use with
  | setJobStatus status =>
      simp only [Use.perform, Handle.setJobStatus, Handle.update]
      split
      · exact .refl session
      · exact stays_store _ _
  | act index deed => exact stays_act session index deed
  | flush said =>
      simp only [Use.perform, Handle.flush]
      split
      · exact stays_writeBack said session.handle.isMapped
      · exact .refl session
  | release said =>
      simp only [Use.perform, Handle.unmap]
      split
      · exact stays_writeBack said false
      · exact .refl session
  | header | jobStatus | regionLength | record | records | strings | takeUp | isMapped | count
  | path => exact .refl session

end Session

namespace Desk

variable {desk : Desk} {which : Nat} {held : Held}

/-- A plan is not made over a file that is there. -/
def Clears (desk : Desk) : Step → Prop
  | .create path _ => ∀ place, desk.volume.filePlace path = .ok place → ¬ desk.volume.HasFile place
  | .use _ _ | .createInMemory _ | .open _ | .overwrite _ _ _ => True

/-- What a step does to files and to the windows on them.  A window that was not there before
shows its file from end to end. -/
structure Turn (desk : Desk) (step : Step) (next : Desk) : Prop where
  windows : ∀ held ∈ next.held, ∀ place length, held.handle.backing = .file place length →
    (∃ old ∈ desk.held, old.handle.backing = .file place length) ∨
      next.volume.HasFile place ∧ length = (next.volume.fileAt place).bytes.size
  files : ∀ place, desk.volume.HasFile place → next.volume.HasFile place
  sizes : desk.Clears step → ∀ place,
    (desk.volume.fileAt place).bytes.size ≤ (next.volume.fileAt place).bytes.size

theorem turn_grown {step : Step} {volume : Volume} (grows : desk.volume.Grows volume) :
    desk.Turn step { desk with volume } :=
  ⟨fun held member _ _ backing => .inl ⟨held, member, backing⟩, grows.files,
    fun _ => grows.sizes⟩

/-- A handle is put beside the others. -/
theorem Turn.add {step : Step} {volume : Volume} (turn : desk.Turn step { desk with volume })
    (new : ∀ place length, held.handle.backing = .file place length →
      volume.HasFile place ∧ length = (volume.fileAt place).bytes.size) :
    desk.Turn step { desk with volume, held := desk.held ++ [held] } := by
  refine ⟨fun other member place length backing => ?_, turn.files, turn.sizes⟩
  rcases List.mem_append.1 member with before | this
  · exact turn.windows other before place length backing
  · rw [List.mem_singleton.1 this] at backing
    exact .inr (new place length backing)

theorem turn_use (desk : Desk) (which : Nat) (use : Use) :
    desk.Turn (.use which use) (desk.use which use) := by
  rw [Desk.use]
  split
  · exact turn_grown (.refl _)
  · rename_i held found
    have stays := Session.stays_perform held.path? (desk.session held) use
    refine ⟨fun other member place length backing => .inl ?_, stays.volume.files,
      fun _ => stays.volume.sizes⟩
    rcases List.mem_or_eq_of_mem_set member with before | rfl
    · exact ⟨other, before, backing⟩
    · exact ⟨held, List.mem_of_getElem? found, stays.backing place length backing⟩

theorem turn_create (desk : Desk) (path : Path) (order : Order) :
    desk.Turn (.create path order) (desk.perform (.create path order)) := by
  rw [Desk.perform]
  rcases Handle.create_cases desk.volume path order with ⟨fault, failed⟩ |
    ⟨place, count, found, done⟩
  · rw [failed]
    exact turn_grown (.refl _)
  · have named := Volume.ne_root_of_filePlace found
    have placed : (desk.volume.put place (.file { bytes := order.image })).fileAt place =
        { bytes := order.image } := Handle.fileAt_put named _
    have turn : desk.Turn (.create path order)
        { desk with volume := desk.volume.put place (.file { bytes := order.image }) } := by
      refine ⟨fun held member _ _ backing => .inl ⟨held, member, backing⟩,
        fun other has => has.put _ _, fun clear => ?_⟩
      -- What was there before may have been longer, unless nothing was.
      have blank := Volume.fileAt_of_not_hasFile (clear place found)
      exact (Volume.grows_put (by rw [blank]; exact Nat.zero_le _)).sizes
    rw [done]
    refine turn.add fun there length backing => ?_
    cases backing
    exact ⟨⟨_, Volume.node?_put_self named _ _⟩, by rw [placed]⟩

theorem turn_perform (desk : Desk) (step : Step) : desk.Turn step (desk.perform step) := by
  cases step with
  | use which use => exact turn_use desk which use
  | create path order => exact turn_create desk path order
  | createInMemory order =>
      rw [Desk.perform]
      split
      · rename_i handle made
        refine (turn_grown (.refl _)).add fun there length backing => ?_
        rw [Handle.createInMemory_eq (Handle.valid_of_createInMemory made)] at made
        cases made
        cases backing
      · exact turn_grown (.refl _)
  | «open» path =>
      rw [Desk.perform]
      split
      · rename_i handle taken
        exact (turn_grown (.refl _)).add fun _ _ => Handle.fills_of_open taken
      · exact turn_grown (.refl _)
  | overwrite path offset patch =>
      rw [Desk.perform]
      split
      · rename_i volume done
        exact turn_grown (Volume.grows_overwrite done)
      · exact turn_grown (.refl _)

/-- There is a file behind every handle that is a window on one. -/
def Grounded (desk : Desk) : Prop :=
  ∀ held ∈ desk.held, held.handle.Grounded desk.volume

theorem Grounded.run (grounded : desk.Grounded) (steps : List Step) :
    (desk.run steps).Grounded := by
  induction steps generalizing desk with
  | nil => exact grounded
  | cons first rest ih =>
      have turn := turn_perform desk first
      refine ih fun held member place length backing => ?_
      rcases turn.windows held member place length backing with ⟨old, before, same⟩ | ⟨has, _⟩
      · exact turn.files place (grounded old before place length same)
      · exact has

/-- No plan is made over a file that is there. -/
def Spares (desk : Desk) : List Step → Prop
  | [] => True
  | step :: rest => desk.Clears step ∧ Spares (desk.perform step) rest

/-- No window reaches behind the end of its file, unless a plan is made over one. -/
theorem inside_run (inside : ∀ held ∈ desk.held, held.handle.Inside desk.volume)
    {steps : List Step} (spares : desk.Spares steps) :
    ∀ held ∈ (desk.run steps).held, held.handle.Inside (desk.run steps).volume := by
  induction steps generalizing desk with
  | nil => exact inside
  | cons first rest ih =>
      have turn := turn_perform desk first
      obtain ⟨clears, later⟩ := spares
      refine ih (fun held member place length backing => ?_) later
      rcases turn.windows held member place length backing with ⟨old, before, same⟩ | ⟨_, fills⟩
      · exact Nat.le_trans (inside old before place length same) (turn.sizes clears place)
      · exact Nat.le_of_eq fills

theorem use_release (found : desk.held[which]? = some held) (said : Except Volume.Fault Unit) :
    desk.use which (.release said) = { desk with
      volume :=
        if held.handle.isMapped then (held.handle.writeBack desk.volume said).2 else desk.volume
      held := desk.held.set which held.released } := by
  rw [Desk.use, found]
  simp only [Use.perform, session, Handle.unmap_snd]
  rfl

theorem sameBytes_release (grounded : desk.Grounded) (found : desk.held[which]? = some held)
    (said : Except Volume.Fault Unit) :
    SameBytes desk.volume (desk.use which (.release said)).volume := by
  rw [use_release found]
  dsimp only
  split
  · exact Handle.sameBytes_writeBack (grounded held (List.mem_of_getElem? found)) said
  · exact .refl _

/-- A release is not noticed through another handle. -/
theorem answer?_release {other : Nat} {shown : Held} (grounded : desk.Grounded)
    (found : desk.held[which]? = some held) (different : other ≠ which)
    (there : desk.held[other]? = some shown) (inside : shown.handle.Inside desk.volume)
    (said : Except Volume.Fault Unit) (use : Use) :
    (desk.use which (.release said)).answer? other use = desk.answer? other use := by
  have still : (desk.held.set which held.released)[other]? = some shown := by
    rw [List.getElem?_set_ne different.symm, there]
  have same : shown.handle.region (desk.use which (.release said)).volume =
      shown.handle.region desk.volume := by
    rw [use_release found]
    dsimp only
    split
    · exact Handle.region_writeBack (grounded held (List.mem_of_getElem? found)) inside said
    · rfl
  rw [use_release found] at same ⊢
  rw [answer?, answer?, still, there, Option.map_some, Option.map_some]
  exact congrArg some (Use.perform_congr same shown.path? desk.tally use)

/-- From its release on a handle answers whatever it is asked as a released handle does, with
its path and its count as they were.  What it is asked does not show anywhere: the desk is as
if only the other steps had been taken.  The release itself, whether or not the system writes
the bytes back, leaves the bytes of every file, so that what is read and opened afterwards is
the same, and what the other handles show.  That their windows lie inside of their files holds
unless a plan was made over one that was open. -/
theorem release_stays {volume : Volume} {tally : Tally} {earlier : List Step}
    (found : (run { volume, tally } earlier).held[which]? = some held)
    (said : Except Volume.Fault Unit) (later : List Step) :
    let before := run { volume, tally } earlier
    let after := before.perform (.use which (.release said))
    (∀ use, (after.run later).answer? which use = some (use.refusal held)) ∧
    after.run later = after.run (later.filter fun step => step.which? ≠ some which) ∧
    (∀ path, after.volume.read path = before.volume.read path ∧
      Handle.open after.volume path = Handle.open before.volume path) ∧
    (∀ other shown, other ≠ which → before.held[other]? = some shown →
      shown.handle.Inside before.volume →
        ∀ use, after.answer? other use = before.answer? other use) ∧
    (({ volume, tally } : Desk).Spares earlier →
      ∀ shown ∈ before.held, shown.handle.Inside before.volume) := by
  intro before after
  have grounded : before.Grounded := Grounded.run (by nofun) earlier
  have released : after.held[which]? = some held.released := by
    have placed : after.held = before.held.set which held.released :=
      congrArg Desk.held (use_release found said)
    obtain ⟨inside, _⟩ := List.getElem?_eq_some_iff.1 found
    rw [placed, List.getElem?_set_self inside]
  have same := sameBytes_release grounded found said
  refine ⟨fun use => ?_, run_purged released rfl later, fun path => ?_,
    fun other shown different there inside use =>
      answer?_release grounded found different there inside said use, inside_run (by nofun)⟩
  · exact answer?_of_released (held_run released rfl later) rfl use
  · exact ⟨same.read path, Handle.open_of_sameBytes same path⟩

/-- A plan that is open twice.  The first handle is released while the disk fails, and then a
status is set through both; only the second one sets it. -/
theorem release_stays_openTwice :
    let order : Order := { items := [{ source := "a", destination := "b" }, { source := "é" }] }
    let path : Path := { parts := ["plan"] }
    let before := run {} [.create path order, .open path]
    let failed : Except Volume.Fault Unit := .error (.refused "Input/output error" 5)
    let after := before.perform (.use 0 (.release failed))
    let later : List Step := [.use 0 (.setJobStatus .failed), .use 1 (.setJobStatus .cancelled),
      .use 0 (.release failed)]
    (after.run later).answer? 0 (.record 9) = some (.error .unmapped) ∧
      (after.run later).answer? 0 .count = some 2 ∧
      (after.run later).answer? 0 (.release failed) = some (.ok ()) ∧
      after.run later = after.run [.use 1 (.setJobStatus .cancelled)] := by
  intro order path before failed after later
  have valid : order.Valid := Order.validate_eq_ok_iff.1 rfl
  let place : Place := { depth := 1, names := ["plan"] }
  let held : Held := {
    path? := some path
    handle := { backing := .file place order.image.size, count := 2 } }
  have done : Handle.create {} path order =
      (.ok held.handle, ({} : Volume).put place (.file { bytes := order.image })) :=
    Handle.create_eq valid rfl
  have made : (perform {} (.create path order)).held[0]? = some held := by
    simp only [perform, done]
    rfl
  have other : (Step.open path).which? ≠ some 0 := nofun
  have found : (run {} [.create path order, .open path]).held[0]? = some held :=
    held_run_pair made other
  obtain ⟨answers, purged, -⟩ := release_stays found failed later
  exact ⟨answers (.record 9), answers .count, answers (.release failed), purged⟩

end Desk

end TransferLedger
