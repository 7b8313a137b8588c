import TransferLedger.Inspection.Visit
import TransferLedger.Proofs.Admission
import TransferLedger.Proofs.Printout

/-! What the inspection of a plan file prints, or why it is refused.

A plan that was opened hands out all the records that it counts, so only the strings and the
status words can be in the way of an inspection.  It reads them one transfer after the other,
and the first one that it cannot read is the one it reports.
-/

namespace TransferLedger

/-! ## Volumes that hold the same bytes -/

namespace Volume

variable {before after : Volume} {path : Path} {place : Place} {file : File}

/-- The bytes of a file; a directory has none. -/
def Node.bytes? : Node → Option ByteArray
  | .file file => some file.bytes
  | .directory => none

def SameBytes (before after : Volume) : Prop :=
  ∀ place, (after.node? place).map Node.bytes? = (before.node? place).map Node.bytes?

theorem SameBytes.refl (volume : Volume) : SameBytes volume volume :=
  fun _ => rfl

theorem sameBytes_flush (found : before.lookup path = .ok (place, .file file)) :
    SameBytes before (before.put place (.file file.flush)) := by
  intro other
  obtain ⟨_, held, _⟩ := lookup_eq_ok_iff.1 found
  by_cases same : other = place
  · rw [same, node?_put_self (ne_root_of_filePlace (filePlace_of_lookup found)), held]
    rfl
  · rw [node?_put_of_ne same]

/-- At each place there is nothing in both volumes, or a directory, or files with one content. -/
theorem SameBytes.cases (same : SameBytes before after) (place : Place) :
    (before.node? place = none ∧ after.node? place = none) ∨
    (before.node? place = some .directory ∧ after.node? place = some .directory) ∨
    ∃ file now, before.node? place = some (.file file) ∧ after.node? place = some (.file now) ∧
      now.bytes = file.bytes := by
  have there := same place
  cases held : before.node? place with
  | none =>
      rw [held, Option.map_none, Option.map_eq_none_iff] at there
      exact .inl ⟨rfl, there⟩
  | some node =>
      rw [held, Option.map_some, Option.map_eq_some_iff] at there
      obtain ⟨now, holds, bytes⟩ := there
      cases node with
      | directory =>
          cases now with
          | directory => exact .inr (.inl ⟨rfl, holds⟩)
          | file => cases bytes
      | file file =>
          cases now with
          | directory => cases bytes
          | file now => exact .inr (.inr ⟨file, now, rfl, holds, Option.some.inj bytes⟩)

theorem SameBytes.checkDirectory (same : SameBytes before after) (place : Place) :
    after.checkDirectory place = before.checkDirectory place := by
  unfold Volume.checkDirectory
  rcases same.cases place with ⟨held, now⟩ | ⟨held, now⟩ | ⟨_, _, held, now, _⟩
  · rw [held, now]
  · rw [held, now]
  · rw [held, now]

theorem SameBytes.resolve (same : SameBytes before after) (path : Path) :
    after.resolve path = before.resolve path := by
  have step : after.step = before.step := by
    funext place step
    simp only [Volume.step, same.checkDirectory]
  rw [Volume.resolve, Volume.resolve, Volume.follow, Volume.follow, step]

theorem SameBytes.read (same : SameBytes before after) (path : Path) :
    after.read path = before.read path := by
  simp only [Volume.read, Volume.lookup, same.resolve, same.checkDirectory]
  cases before.resolve path with
  | error fault => rfl
  | ok place =>
      rcases same.cases place with ⟨held, now⟩ | ⟨held, now⟩ | ⟨_, _, held, now, bytes⟩
      · rw [ok_bind, ok_bind, held, now]
      · rw [ok_bind, ok_bind, held, now]
      · rw [ok_bind, ok_bind, held, now]
        split
        · cases before.checkDirectory place with
          | error fault => rfl
          | ok _ => simp only [ok_bind, bytes]
        · simp only [ok_bind, bytes]

end Volume

namespace Plan

theorem Region.header_of_ofBytes {bytes : ByteArray} {region : Region}
    (checked : ofBytes bytes = .ok region) :
    ∃ header, Header.read bytes = .ok header ∧ region.header = .ok header := by
  obtain ⟨whole, same⟩ := whole_of_ofBytes checked
  obtain ⟨long, header, read, _, _⟩ := ofBytes_eq_ok_iff.1 checked
  refine ⟨header, read, ?_⟩
  rw [whole.header_eq, same, Header.read_slice (Nat.le_trans (by decide) long), read]

namespace Handle

open Volume (Path Place File)

variable {volume : Volume} {path : Path} {handle : Handle} {fault : Fault}

/-- The file behind a handle that was opened, and the region that it shows. -/
theorem file_of_open (taken : «open» volume path = .ok handle) :
    ∃ place file region, volume.lookup path = .ok (place, .file file) ∧
      handle = { backing := .file place file.bytes.size, count := region.count } ∧
      Region.ofBytes file.bytes = .ok region ∧ handle.Shows volume region ∧ region.Whole := by
  obtain ⟨place, file, found⟩ := lookup_of_open taken
  obtain ⟨shownRegion, read, shown, _⟩ := region_of_open taken (.refl found)
  rw [open_of_lookup found] at taken
  obtain ⟨region, checked, made⟩ := bind_eq_ok_iff.1 taken
  obtain ⟨whole, bytes⟩ := Region.whole_of_ofBytes checked
  rw [Volume.read, found, ok_bind, Except.ok.injEq] at read
  have count : shownRegion.count = region.count := by
    rw [← shown.count_eq, ← Except.ok.inj made]
  have same : shownRegion = region := by
    obtain ⟨shownCount, shownBytes⟩ := shownRegion
    simp only at count read
    rw [count, ← read, ← bytes]
  exact ⟨place, file, region, found, (Except.ok.inj made).symm, checked, same ▸ shown, whole⟩

/-- What is wrong with a file when it is opened is wrong with what is read from it. -/
theorem read_of_open_error (refused : «open» volume path = .error fault) :
    ((volume.read path).mapError Fault.io >>= Region.ofBytes) = .error fault := by
  cases found : volume.lookup path with
  | error missed =>
      rw [«open», found, mapError_error, error_bind] at refused
      rw [Volume.read, found, error_bind, mapError_error, error_bind]
      cases refused
      rfl
  | ok target =>
      obtain ⟨place, node⟩ := target
      cases node with
      | file file =>
          rw [Volume.read, found, ok_bind, mapError_ok, ok_bind]
          exact (open_eq_error_iff found).1 refused
      | directory =>
          rw [«open», found, mapError_ok, ok_bind] at refused
          rw [Volume.read, found, ok_bind, mapError_error, error_bind]
          cases refused
          rfl

end Handle

end Plan

namespace Inspection

open Plan (Handle Order Record Region)

variable {volume : Volume} {text : String} {handle : Handle} {region : Region} {index : UInt32}
variable {entry : Entry} {inspection : Inspection} {refusal : Refusal}

/-! ## Through a handle and from the bytes -/

theorem Entry.ofHandle_eq (shown : handle.Shows volume region) (whole : region.Whole)
    (known : index < region.count) :
    ofHandle handle volume (handle.record volume index) = ofRegion region index := by
  have taken := whole.record_eq known
  have found : handle.record volume index = region.record index := shown.view_eq _
  rw [found, ofHandle, ofRegion, taken, mapError_ok, ok_bind, ok_bind, Handle.strings,
    shown.view_eq, Handle.transferStatus, shown.view_eq, Handle.completionTime, shown.view_eq]
  rfl

theorem ofHandle_eq (shown : handle.Shows volume region) (whole : region.Whole) (path : String) :
    ofHandle path handle volume = ofRegion path region := by
  have entries : (handle.records volume).mapM (Entry.ofHandle handle volume) =
      (Region.indices region.count).mapM (Entry.ofRegion region) := by
    rw [Handle.records, List.mapM_map, shown.count_eq]
    refine mapM_congr fun index member => ?_
    obtain ⟨_, found⟩ := List.mem_iff_getElem?.1 member
    exact Entry.ofHandle_eq shown whole (Region.getElem?_indices.1 found).2
  rw [ofHandle, ofRegion, entries, Handle.jobStatus, shown.view_eq, Handle.header, shown.view_eq]

/-! ## The ends of a visit -/

theorem visit_of_open_error {fault : Plan.Fault}
    (refused : Handle.open volume (.ofText text) = .error fault)
    (said : Except Volume.Fault Unit) :
    visit volume text said =
      (.error (.during ("failed to open plan " ++ text) fault), opening volume text, volume) := by
  rw [visit, refused]

theorem visit_of_error (taken : Handle.open volume (.ofText text) = .ok handle)
    (flawed : ofHandle text handle volume = .error refusal) (said : Except Volume.Fault Unit) :
    visit volume text said = (.error refusal, opening volume text, volume) := by
  rw [visit, taken]
  dsimp only
  rw [flawed]

theorem visit_of_ok (taken : Handle.open volume (.ofText text) = .ok handle)
    (fine : ofHandle text handle volume = .ok inspection) :
    visit volume text =
      (.ok inspection,
        opening volume text ++ [.unmapped text] ++ [.loaded text inspection.entries.length],
        handle.settle volume) := by
  obtain ⟨place, file, region, _, rfl, _⟩ := Handle.file_of_open taken
  rw [visit, taken]
  dsimp only
  rw [fine]
  rfl

/-- A plan that is open is logged with its part and its count. -/
theorem opening_of_open (taken : Handle.open volume (.ofText text) = .ok handle) :
    ∃ header, handle.header volume = .ok header ∧
      opening volume text = [.opened text header.partNumber handle.count] := by
  obtain ⟨place, file, region, found, rfl, checked, shown, _⟩ := Handle.file_of_open taken
  obtain ⟨header, read, served⟩ := Region.header_of_ofBytes checked
  have long := (Region.ofBytes_eq_ok_iff.1 checked).1
  have held : volume.read (.ofText text) = .ok file.bytes := by rw [Volume.read, found, ok_bind]
  refine ⟨header, (shown.view_eq _).trans served, ?_⟩
  rw [opening, held]
  dsimp only
  rw [if_neg (Nat.not_lt.2 long), read, checked]

/-- What could be read is not printed if the system cannot write it back. -/
theorem visit_of_unwritten (taken : Handle.open volume (.ofText text) = .ok handle)
    (fine : ofHandle text handle volume = .ok inspection) (fault : Volume.Fault) :
    visit volume text (.error fault) =
      (.error (.ofFault (.io fault)), opening volume text ++ [.unmapped text], volume) := by
  obtain ⟨place, file, region, _, rfl, _⟩ := Handle.file_of_open taken
  rw [visit, taken]
  dsimp only
  rw [fine]
  rfl

theorem visit_of_open (taken : Handle.open volume (.ofText text) = .ok handle) :
    (visit volume text).1 = ofHandle text handle volume := by
  cases found : ofHandle text handle volume with
  | error refusal => rw [visit_of_error taken found]
  | ok inspection => rw [visit_of_ok taken found]

/-- A visit finds what is found in the bytes of the file. -/
theorem visit_eq (volume : Volume) (text : String) :
    (visit volume text).1 = ofContent text (volume.read (.ofText text)) := by
  cases taken : Handle.open volume (.ofText text) with
  | error fault =>
      rw [visit_of_open_error taken, ofContent, Handle.read_of_open_error taken]
      rfl
  | ok handle =>
      obtain ⟨place, file, region, found, _, checked, shown, whole⟩ := Handle.file_of_open taken
      rw [visit_of_open taken, ofHandle_eq shown whole, ofContent, Volume.read, found, ok_bind,
        mapError_ok, ok_bind, checked, mapError_ok, ok_bind]

/-- Whatever a visit finds, it leaves the bytes of all files as they are. -/
theorem sameBytes_visit (volume : Volume) (text : String) (said : Except Volume.Fault Unit) :
    volume.SameBytes (visit volume text said).2.2 := by
  cases taken : Handle.open volume (.ofText text) with
  | error fault =>
      rw [visit_of_open_error taken]
      exact .refl volume
  | ok handle =>
      cases found : ofHandle text handle volume with
      | error refusal =>
          rw [visit_of_error taken found]
          exact .refl volume
      | ok inspection =>
          cases said with
          | error fault =>
              rw [visit_of_unwritten taken found]
              exact .refl volume
          | ok done =>
              rw [visit_of_ok taken found]
              obtain ⟨place, file, region, there, rfl, _⟩ := Handle.file_of_open taken
              have kept := Volume.sameBytes_flush there
              rw [← Volume.fileAt_of_lookup there] at kept
              exact kept

/-! ## One transfer -/

/-- Both strings of the transfer are read, and its status word holds a status. -/
structure Sound (handle : Handle) (volume : Volume) (index : UInt32) : Prop where
  strings : ∃ strings, handle.strings volume index = .ok strings
  status : ∃ record status, handle.record volume index = .ok record ∧
    handle.transferStatus volume record = .ok status

/-- What is refused of a transfer: its strings, or else its status word. -/
inductive Flaw (handle : Handle) (volume : Volume) (index : UInt32) : Refusal → Prop where
  | strings {fault : Plan.Fault} (misread : handle.strings volume index = .error fault) :
      Flaw handle volume index {
        what := "transfer " ++ toString index.toNat
        causes := fault.message :: fault.cause?.toList }
  | status {strings : String × String} {record : Record} {fault : Plan.Fault}
      (read : handle.strings volume index = .ok strings)
      (taken : handle.record volume index = .ok record)
      (unknown : handle.transferStatus volume record = .error fault) :
      Flaw handle volume index { what := fault.message, causes := fault.cause?.toList }

theorem Sound.not_flaw (sound : Sound handle volume index) :
    ¬ Flaw handle volume index refusal := by
  intro flaw
  obtain ⟨⟨strings, read⟩, record, status, taken, decoded⟩ := sound
  cases flaw with
  | strings misread =>
      rw [read] at misread
      cases misread
  | status _ again unknown =>
      rw [taken, Except.ok.injEq] at again
      subst again
      rw [decoded] at unknown
      cases unknown

/-- The entry says what the handle reads of the transfer. -/
structure Entry.Tells (handle : Handle) (volume : Volume) (index : UInt32) (entry : Entry) :
    Prop where
  numbered : entry.index = index
  strings : handle.strings volume index = .ok (entry.source, entry.destination)
  record : ∃ record, handle.record volume index = .ok record ∧
    record.descriptor.size = entry.size ∧
    handle.transferStatus volume record = .ok entry.status ∧
    handle.completionTime volume record = .ok entry.completionTime

theorem Entry.Tells.sound (tells : entry.Tells handle volume index) :
    Sound handle volume index := by
  obtain ⟨record, taken, _, status, _⟩ := tells.record
  exact ⟨⟨_, tells.strings⟩, record, _, taken, status⟩

/-- The records that a plan counts are handed out with their numbers. -/
theorem handed (shown : handle.Shows volume region) (whole : region.Whole)
    (known : index < region.count) :
    ∃ record time, handle.record volume index = .ok record ∧ record.index = index ∧
      handle.completionTime volume record = .ok time := by
  have taken := whole.record_eq known
  exact ⟨_, _, (shown.view_eq _).trans taken, rfl, shown.view_eq _⟩

theorem Entry.ofHandle_eq_ok_iff (shown : handle.Shows volume region) (whole : region.Whole)
    (known : index < region.count) :
    ofHandle handle volume (handle.record volume index) = .ok entry ↔
      entry.Tells handle volume index := by
  obtain ⟨record, time, taken, numbered, timed⟩ := handed shown whole known
  rw [taken, ofHandle, mapError_ok, ok_bind, numbered, timed]
  constructor
  · intro done
    obtain ⟨⟨source, destination⟩, read, done⟩ := bind_eq_ok_iff.1 done
    obtain ⟨status, decoded, done⟩ := bind_eq_ok_iff.1 done
    rw [mapError_ok, ok_bind] at done
    cases done
    exact ⟨rfl, mapError_eq_ok_iff.1 read, record, taken, rfl, mapError_eq_ok_iff.1 decoded, timed⟩
  · intro tells
    obtain ⟨other, again, size, decoded, timedToo⟩ := tells.record
    rw [taken, Except.ok.injEq] at again
    subst again
    rw [timed, Except.ok.injEq] at timedToo
    rw [tells.strings, mapError_ok, ok_bind]
    dsimp only
    rw [decoded, mapError_ok, ok_bind, mapError_ok, ok_bind, size, timedToo, ← tells.numbered]

theorem Entry.ofHandle_eq_error_iff (shown : handle.Shows volume region) (whole : region.Whole)
    (known : index < region.count) :
    ofHandle handle volume (handle.record volume index) = .error refusal ↔
      Flaw handle volume index refusal := by
  obtain ⟨record, time, taken, numbered, timed⟩ := handed shown whole known
  rw [taken, ofHandle, mapError_ok, ok_bind, numbered, timed]
  constructor
  · intro failed
    rcases bind_eq_error_iff.1 failed with misread | ⟨strings, read, failed⟩
    · obtain ⟨fault, raised, rfl⟩ := mapError_eq_error_iff.1 misread
      exact .strings raised
    · rcases bind_eq_error_iff.1 failed with unknown | ⟨status, _, failed⟩
      · obtain ⟨fault, raised, rfl⟩ := mapError_eq_error_iff.1 unknown
        exact .status (mapError_eq_ok_iff.1 read) taken raised
      · rw [mapError_ok, ok_bind] at failed
        cases failed
  · intro flaw
    cases flaw with
    | strings misread =>
        rw [misread, mapError_error, error_bind]
        rfl
    | status read again unknown =>
        rw [taken, Except.ok.injEq] at again
        subst again
        rw [read, mapError_ok, ok_bind, unknown, mapError_error]
        rfl

/-- There is an entry for a transfer exactly if it is sound. -/
theorem sound_iff (shown : handle.Shows volume region) (whole : region.Whole)
    (known : index < region.count) :
    Sound handle volume index ↔
      ∃ entry, Entry.ofHandle handle volume (handle.record volume index) = .ok entry := by
  constructor
  · intro sound
    cases made : Entry.ofHandle handle volume (handle.record volume index) with
    | ok entry => exact ⟨entry, rfl⟩
    | error refusal =>
        exact absurd ((Entry.ofHandle_eq_error_iff shown whole known).1 made) sound.not_flaw
  · intro ⟨entry, made⟩
    exact ((Entry.ofHandle_eq_ok_iff shown whole known).1 made).sound

/-! ## The whole plan -/

/-- The inspection says what the handle reads of the plan. -/
structure Tells (handle : Handle) (volume : Volume) (text : String) (inspection : Inspection) :
    Prop where
  named : inspection.path = text
  jobStatus : handle.jobStatus volume = .ok inspection.jobStatus
  header : handle.header volume = .ok inspection.header
  length : inspection.entries.length = handle.count.toNat
  entries : ∀ index < handle.count, ∃ entry, inspection.entries[index.toNat]? = some entry ∧
    entry.Tells handle volume index

/-- The first thing that is wrong with the plan at a path: it cannot be opened, or one of its
transfers is flawed and all before it are sound, or all are sound and its status is unknown. -/
inductive Defect (volume : Volume) (text : String) : Refusal → Prop where
  | shut {fault : Plan.Fault} (refused : Handle.open volume (.ofText text) = .error fault) :
      Defect volume text {
        what := "failed to open plan " ++ text
        causes := fault.message :: fault.cause?.toList }
  | transfer {handle : Handle} {index : UInt32} {refusal : Refusal}
      (taken : Handle.open volume (.ofText text) = .ok handle) (known : index < handle.count)
      (before : ∀ other < index, Sound handle volume other)
      (flaw : Flaw handle volume index refusal) : Defect volume text refusal
  | jobStatus {handle : Handle} {fault : Plan.Fault}
      (taken : Handle.open volume (.ofText text) = .ok handle)
      (sound : ∀ index < handle.count, Sound handle volume index)
      (unknown : handle.jobStatus volume = .error fault) :
      Defect volume text { what := fault.message, causes := fault.cause?.toList }

theorem entries_eq_ok_iff (shown : handle.Shows volume region) (whole : region.Whole)
    {entries : List Entry} :
    (handle.records volume).mapM (Entry.ofHandle handle volume) = .ok entries ↔
      entries.length = handle.count.toNat ∧ ∀ index < handle.count, ∃ entry,
        entries[index.toNat]? = some entry ∧ entry.Tells handle volume index := by
  rw [Handle.records, List.mapM_map, Region.mapM_indices_eq_ok_iff, shown.count_eq]
  refine and_congr_right fun _ => forall₂_congr fun index known => ?_
  simp only [Function.comp_apply, Entry.ofHandle_eq_ok_iff shown whole known]

theorem entries_eq_error_iff (shown : handle.Shows volume region) (whole : region.Whole) :
    (handle.records volume).mapM (Entry.ofHandle handle volume) = .error refusal ↔
      ∃ index, index < handle.count ∧ Flaw handle volume index refusal ∧
        ∀ other < index, Sound handle volume other := by
  rw [Handle.records, List.mapM_map, Region.mapM_indices_eq_error_iff, shown.count_eq]
  refine exists_congr fun index => and_congr_right fun known => and_congr ?_ ?_
  · exact Entry.ofHandle_eq_error_iff shown whole known
  · refine forall₂_congr fun other less => ?_
    exact (sound_iff shown whole (UInt32.lt_trans less known)).symm

theorem ofHandle_eq_ok_iff (shown : handle.Shows volume region) (whole : region.Whole) :
    ofHandle text handle volume = .ok inspection ↔ inspection.Tells handle volume text := by
  constructor
  · intro done
    obtain ⟨entries, listed, done⟩ := bind_eq_ok_iff.1 done
    obtain ⟨jobStatus, decoded, done⟩ := bind_eq_ok_iff.1 done
    obtain ⟨header, read, done⟩ := bind_eq_ok_iff.1 done
    cases done
    obtain ⟨length, each⟩ := (entries_eq_ok_iff shown whole).1 listed
    exact ⟨rfl, mapError_eq_ok_iff.1 decoded, mapError_eq_ok_iff.1 read, length, each⟩
  · intro tells
    have listed := (entries_eq_ok_iff shown whole).2 ⟨tells.length, tells.entries⟩
    rw [ofHandle, listed, ok_bind, tells.jobStatus, mapError_ok, ok_bind, tells.header,
      mapError_ok, ok_bind, ← tells.named]

/-- The header was read when the plan was opened, so it is not in the way any more. -/
theorem ofHandle_eq_error_iff (shown : handle.Shows volume region) (whole : region.Whole)
    {header : Plan.Header} (read : handle.header volume = .ok header) :
    ofHandle text handle volume = .error refusal ↔
      (∃ index, index < handle.count ∧ Flaw handle volume index refusal ∧
        ∀ other < index, Sound handle volume other) ∨
      ∃ fault, (∀ index < handle.count, Sound handle volume index) ∧
        handle.jobStatus volume = .error fault ∧
        refusal = { what := fault.message, causes := fault.cause?.toList } := by
  constructor
  · intro failed
    rcases bind_eq_error_iff.1 failed with flawed | ⟨entries, listed, failed⟩
    · exact .inl ((entries_eq_error_iff shown whole).1 flawed)
    · rcases bind_eq_error_iff.1 failed with unknown | ⟨jobStatus, _, failed⟩
      · obtain ⟨fault, raised, rfl⟩ := mapError_eq_error_iff.1 unknown
        refine .inr ⟨fault, fun index known => ?_, raised, rfl⟩
        obtain ⟨entry, _, tells⟩ := ((entries_eq_ok_iff shown whole).1 listed).2 index known
        exact tells.sound
      · rw [read, mapError_ok, ok_bind] at failed
        cases failed
  · intro defect
    rcases defect with flawed | ⟨fault, sound, raised, rfl⟩
    · rw [ofHandle, (entries_eq_error_iff shown whole).2 flawed, error_bind]
    · cases listed : (handle.records volume).mapM (Entry.ofHandle handle volume) with
      | ok entries =>
          rw [ofHandle, listed, ok_bind, raised, mapError_error, error_bind]
          rfl
      | error refusal =>
          obtain ⟨index, known, flaw, _⟩ := (entries_eq_error_iff shown whole).1 listed
          exact absurd flaw (sound index known).not_flaw

/-- A visit succeeds exactly with what the plan tells. -/
theorem visit_eq_ok_iff :
    (visit volume text).1 = .ok inspection ↔ ∃ handle,
      Handle.open volume (.ofText text) = .ok handle ∧ inspection.Tells handle volume text := by
  cases taken : Handle.open volume (.ofText text) with
  | error fault =>
      rw [visit_of_open_error taken]
      exact iff_of_false nofun nofun
  | ok handle =>
      obtain ⟨_, _, _, _, _, _, shown, whole⟩ := Handle.file_of_open taken
      rw [visit_of_open taken, ofHandle_eq_ok_iff shown whole]
      simp only [Except.ok.injEq, exists_eq_left']

/-- A visit fails exactly with the first defect of the plan. -/
theorem visit_eq_error_iff :
    (visit volume text).1 = .error refusal ↔ Defect volume text refusal := by
  cases taken : Handle.open volume (.ofText text) with
  | error fault =>
      rw [visit_of_open_error taken, Except.error.injEq]
      constructor
      · intro same
        exact same ▸ .shut taken
      · intro defect
        cases defect with
        | shut refused =>
            rw [taken, Except.error.injEq] at refused
            rw [refused]
            rfl
        | transfer opened =>
            rw [taken] at opened
            cases opened
        | jobStatus opened =>
            rw [taken] at opened
            cases opened
  | ok handle =>
      obtain ⟨_, _, region, _, _, checked, shown, whole⟩ := Handle.file_of_open taken
      obtain ⟨header, _, read⟩ := Region.header_of_ofBytes checked
      have served : handle.header volume = .ok header := (shown.view_eq _).trans read
      rw [visit_of_open taken, ofHandle_eq_error_iff shown whole served]
      constructor
      · intro defect
        rcases defect with ⟨index, known, flaw, before⟩ | ⟨fault, sound, raised, rfl⟩
        · exact .transfer taken known before flaw
        · exact .jobStatus taken sound raised
      · intro defect
        cases defect with
        | shut refused =>
            rw [taken] at refused
            cases refused
        | transfer opened known before flaw =>
            rw [taken, Except.ok.injEq] at opened
            subst opened
            exact .inl ⟨_, known, flaw, before⟩
        | jobStatus opened sound raised =>
            rw [taken, Except.ok.injEq] at opened
            subst opened
            exact .inr ⟨_, sound, raised, rfl⟩

/-! ## The command -/

/-- The text that a refusal is printed as: what went wrong, and each cause on a line of its own.
Two causes are counted. -/
inductive Refusal.PrintedAs : Refusal → String → Prop where
  | alone {what : String} : PrintedAs { what } ("Error: " ++ what ++ "\n")
  | caused {what cause : String} : PrintedAs { what, causes := [cause] }
      ("Error: " ++ what ++ "\n\nCaused by:\n    " ++ cause ++ "\n")
  | causedTwice {what first second : String} : PrintedAs { what, causes := [first, second] }
      ("Error: " ++ what ++ "\n\nCaused by:\n    0: " ++ first ++ "\n    1: " ++ second ++ "\n")

theorem Refusal.numbered_pair (first second : String) :
    numbered [first, second] = "    0: " ++ first ++ "\n" ++ ("    1: " ++ second ++ "\n") := by
  simp only [numbered, List.mapIdx_cons, List.mapIdx_nil, String.join_cons, String.join_nil,
    String.append_empty]
  rfl

theorem Refusal.printedAs_report (few : refusal.causes.length ≤ 2) :
    refusal.PrintedAs refusal.report := by
  obtain ⟨what, causes⟩ := refusal
  cases causes with
  | nil =>
      have text : report { what } = "Error: " ++ what ++ "\n" := String.append_empty
      exact text ▸ .alone
  | cons first rest =>
      cases rest with
      | nil =>
          have text : report { what, causes := [first] } =
              "Error: " ++ what ++ "\n\nCaused by:\n    " ++ first ++ "\n" := by
            simp only [report, String.append_assoc]
            rfl
          exact text ▸ .caused
      | cons second rest =>
          cases rest with
          | nil =>
              have text : report { what, causes := [first, second] } =
                  "Error: " ++ what ++ "\n\nCaused by:\n    0: " ++ first ++
                    "\n    1: " ++ second ++ "\n" := by
                simp only [report, numbered_pair, String.append_assoc]
                rfl
              exact text ▸ .causedTwice
          | cons third rest => exact absurd few (by simp)

/-- A fault has a message, and at most one more from what is underneath. -/
theorem Defect.few (defect : Defect volume text refusal) : refusal.causes.length ≤ 2 := by
  have one (fault : Plan.Fault) : fault.cause?.toList.length ≤ 1 := Option.length_toList_le
  cases defect with
  | shut refused => exact Nat.succ_le_succ (one _)
  | transfer taken known before flaw =>
      cases flaw with
      | strings misread => exact Nat.succ_le_succ (one _)
      | status read taken unknown => exact Nat.le_succ_of_le (one _)
  | jobStatus taken sound unknown => exact Nat.le_succ_of_le (one _)

/-- The printout is a document, and what is read from it is all that the handle reads. -/
structure Prints (handle : Handle) (volume : Volume) (text : String) (logged : String)
    (printed : Printout) : Prop where
  exitCode : printed.exitCode = 0
  errors : printed.errors = logged
  document : ∃ inspection : Inspection, inspection.Tells handle volume text ∧
    Json.read? printed.output = some inspection.toJson ∧
    ofJson? inspection.toJson = some inspection

/-- The code for success stands for an inspection, whatever was logged. -/
theorem exitCode_printout_eq_zero_iff {result : Except Refusal Inspection} {logged : String} :
    (printout result logged).exitCode = 0 ↔ ∃ inspection, result = .ok inspection := by
  cases result with
  | ok inspection => exact iff_of_true rfl ⟨inspection, rfl⟩
  | error refusal =>
      have apart : (1 : UInt8) ≠ 0 := by decide
      refine iff_of_false apart fun ⟨inspection, found⟩ => ?_
      cases found

/-- A visit is printed as a document exactly if all the transfers are sound and the job has a
status. -/
theorem exitCode_eq_zero_iff {logged : String} :
    (printout (visit volume text).1 logged).exitCode = 0 ↔ ∃ handle,
      Handle.open volume (.ofText text) = .ok handle ∧
      (∀ index < handle.count, Sound handle volume index) ∧
      ∃ status, handle.jobStatus volume = .ok status := by
  rw [exitCode_printout_eq_zero_iff]
  constructor
  · intro ⟨inspection, found⟩
    obtain ⟨handle, taken, tells⟩ := visit_eq_ok_iff.1 found
    refine ⟨handle, taken, fun index known => ?_, _, tells.jobStatus⟩
    obtain ⟨entry, _, told⟩ := tells.entries index known
    exact told.sound
  · intro ⟨handle, taken, sound, status, decoded⟩
    cases found : (visit volume text).1 with
    | ok inspection => exact ⟨inspection, rfl⟩
    | error refusal =>
        cases visit_eq_error_iff.1 found with
        | shut refused =>
            rw [taken] at refused
            cases refused
        | transfer opened known _ flaw =>
            rw [taken, Except.ok.injEq] at opened
            subst opened
            exact absurd flaw (sound _ known).not_flaw
        | jobStatus opened _ unknown =>
            rw [taken, Except.ok.injEq] at opened
            subst opened
            rw [decoded] at unknown
            cases unknown

/-- A visit whose bytes cannot be written back is refused, for a defect of the plan or else for
that. -/
theorem visit_unwritten_cases (volume : Volume) (text : String) (fault : Volume.Fault) :
    ∃ refusal, (visit volume text (.error fault)).1 = .error refusal ∧
      (Defect volume text refusal ∨
        (∃ inspection, (visit volume text).1 = .ok inspection) ∧
          refusal = { what := "I/O error: " ++ fault.message, causes := [fault.message] }) := by
  cases taken : Handle.open volume (.ofText text) with
  | error shut => exact ⟨_, congrArg Prod.fst (visit_of_open_error taken _), .inl (.shut taken)⟩
  | ok handle =>
      cases found : ofHandle text handle volume with
      | error refusal =>
          have refused : (visit volume text).1 = .error refusal := by
            rw [visit_of_open taken, found]
          exact ⟨refusal, congrArg Prod.fst (visit_of_error taken found _),
            .inl (visit_eq_error_iff.1 refused)⟩
      | ok inspection =>
          have fine : (visit volume text).1 = .ok inspection := by
            rw [visit_of_open taken, found]
          exact ⟨_, congrArg Prod.fst (visit_of_unwritten taken found fault),
            .inr ⟨⟨inspection, fine⟩, rfl⟩⟩

theorem command_unwritten (log : Log) (volume : Volume) (text : String) (more : List String)
    (fault : Volume.Fault) :
    ∃ refusal report, refusal.PrintedAs report ∧
      (command log volume (text :: more) (.error fault)).1 = {
        exitCode := 1
        output := ""
        errors := log.write (visit volume text (.error fault)).2.1 ++ report } ∧
      (Defect volume text refusal ∨ (command log volume (text :: more)).1.exitCode = 0 ∧
        refusal = { what := "I/O error: " ++ fault.message, causes := [fault.message] }) := by
  obtain ⟨refusal, ended, why⟩ := visit_unwritten_cases volume text fault
  have printed : (command log volume (text :: more) (.error fault)).1 =
      printout (visit volume text (.error fault)).1
        (log.write (visit volume text (.error fault)).2.1) := rfl
  have few : refusal.causes.length ≤ 2 := by
    rcases why with defect | ⟨_, rfl⟩
    · exact defect.few
    · exact Nat.le_succ 1
  refine ⟨refusal, _, refusal.printedAs_report few, by rw [printed, ended]; rfl, ?_⟩
  rcases why with defect | ⟨⟨inspection, fine⟩, same⟩
  · exact .inl defect
  · exact .inr ⟨exitCode_printout_eq_zero_iff.2 ⟨inspection, fine⟩, same⟩

/-- The command prints all of a plan or the first defect of it, and writes nothing to any
file.  What it logs stands before the report of a defect.  A plan without a defect is still
not printed if the system cannot write its bytes back, and that is the error then. -/
theorem command_exact (log : Log) (volume : Volume) (text : String) (more : List String) :
    let run := command log volume (text :: more)
    let logged := log.write (visit volume text).2.1
    (run.1.exitCode = 0 ↔ ∃ handle, Handle.open volume (.ofText text) = .ok handle ∧
      (∀ index < handle.count, Sound handle volume index) ∧
      ∃ status, handle.jobStatus volume = .ok status) ∧
    (run.1.exitCode = 0 → ∃ handle, Handle.open volume (.ofText text) = .ok handle ∧
      Prints handle volume text logged run.1) ∧
    (run.1.exitCode ≠ 0 → ∃ refusal, Defect volume text refusal) ∧
    (∀ refusal, Defect volume text refusal → ∃ report, refusal.PrintedAs report ∧
      run.1 = { exitCode := 1, output := "", errors := logged ++ report }) ∧
    (∀ said path, (command log volume (text :: more) said).2.read path = volume.read path) ∧
    run.1 = printout (ofContent text (volume.read (.ofText text))) logged ∧
    ∀ fault : Volume.Fault, ∃ refusal report, refusal.PrintedAs report ∧
      (command log volume (text :: more) (.error fault)).1 = {
        exitCode := 1
        output := ""
        errors := log.write (visit volume text (.error fault)).2.1 ++ report } ∧
      (Defect volume text refusal ∨ run.1.exitCode = 0 ∧
        refusal = { what := "I/O error: " ++ fault.message, causes := [fault.message] }) := by
  intro run logged
  have printed : run.1 = printout (visit volume text).1 logged := rfl
  rw [printed]
  refine ⟨exitCode_eq_zero_iff, fun fine => ?_, fun refused => ?_, fun refusal defect => ?_,
    fun said => (sameBytes_visit volume text said).read, by rw [visit_eq],
    command_unwritten log volume text more⟩
  · obtain ⟨inspection, found⟩ := exitCode_printout_eq_zero_iff.1 fine
    obtain ⟨handle, taken, tells⟩ := visit_eq_ok_iff.1 found
    rw [found]
    exact ⟨handle, taken, rfl, rfl, inspection, tells, Json.read?_line inspection.plain_toJson,
      ofJson?_toJson inspection⟩
  · cases found : (visit volume text).1 with
    | error refusal => exact ⟨refusal, visit_eq_error_iff.1 found⟩
    | ok inspection =>
        exact absurd (exitCode_printout_eq_zero_iff.2 ⟨inspection, found⟩) refused
  · rw [visit_eq_error_iff.2 defect]
    exact ⟨_, Refusal.printedAs_report defect.few, rfl⟩

/-- A plan whose strings have quotes, backslashes and controls in them, a file that is too short
for a plan, and no file at all. -/
theorem command_exact_threeVolumes :
    let log : Log := { line := fun event => event.message ++ "\n" }
    let order : Order := { items := [{ source := "a\"b\\c", destination := "d\n\x01" }] }
    let place : Volume.Place := { depth := 1, names := ["p"] }
    let holding (bytes : ByteArray) : Volume := ({} : Volume).put place (.file { bytes })
    let printed := (command log (holding order.image) ["p"]).1
    (printed.exitCode = 0 ∧ printed.errors = "plan loaded\n" ∧
      ∃ (inspection : Inspection) (entry : Entry),
        Json.read? printed.output = some inspection.toJson ∧
        inspection.entries[0]? = some entry ∧ entry.source = "a\"b\\c" ∧
        entry.destination = "d\n\x01") ∧
    (command log (holding ⟨#[1, 2, 3]⟩) ["p"]).1 = {
      exitCode := 1
      errors := "Error: failed to open plan p\n\nCaused by:\n" ++
        "    plan region is 3 bytes, need at least 1600\n" } ∧
    (command log {} ["p"]).1 = {
      exitCode := 1
      errors := "Error: failed to open plan p\n\nCaused by:\n" ++
        "    0: I/O error: No such file or directory (os error 2)\n" ++
        "    1: No such file or directory (os error 2)\n" } := by
  intro log order place holding printed
  have valid : order.Valid := Order.validate_eq_ok_iff.1 rfl
  have path : Volume.Path.ofText "p" = { parts := ["p"] } := by
    rw [Volume.Path.ofText, String.splitOn, if_neg (by decide), String.splitOnAux,
      if_neg (by decide), if_neg (by decide), String.splitOnAux, if_pos (by decide)]
    decide
  have found : ({} : Volume).filePlace (.ofText "p") = .ok place := by
    rw [path]
    rfl
  refine ⟨?plan, ?short, ?missing⟩
  case plan =>
    have taken := Handle.open_created valid found
    have shown : Handle.Shows { backing := .file place order.image.size, count := 1 }
        (holding order.image) (Region.ofOrder order) :=
      Handle.shows_file (Volume.ne_root_of_filePlace found)
    have plan := Handle.reproduces shown valid
    have first : ∀ index : UInt32, index < 1 → index = 0 := by
      intro index known
      exact UInt32.toNat_inj.1 (Nat.lt_one_iff.1 (UInt32.lt_iff_toNat_lt.1 known))
    obtain ⟨record, handed, _, _, _, _, _, _, status, _, strings⟩ := plan.transfers 0 _ rfl
    obtain ⟨zero, prints, -⟩ := command_exact log (holding order.image) "p" []
    have fine : printed.exitCode = 0 := by
      refine zero.2 ⟨_, taken, fun index known => ?_, _, plan.jobStatus⟩
      cases first index known
      exact ⟨⟨_, strings⟩, record, _, handed, status⟩
    obtain ⟨handle, again, told⟩ := prints fine
    obtain ⟨inspection, tells, read, _⟩ := told.document
    cases taken.symm.trans again
    obtain ⟨entry, listed, entryTells⟩ := tells.entries 0 (by decide)
    have same := strings.symm.trans entryTells.strings
    rw [Except.ok.injEq, Prod.mk.injEq] at same
    refine ⟨fine, ?_, inspection, entry, read, listed, same.1.symm, same.2.symm⟩
    obtain ⟨header, _, events⟩ := opening_of_open taken
    have whole : (visit (holding order.image) "p").1 = .ok inspection :=
      visit_eq_ok_iff.2 ⟨_, taken, tells⟩
    rw [visit_of_open taken] at whole
    rw [told.errors, visit_of_ok taken whole, events]
    rfl
  case short =>
    obtain ⟨-, -, -, refused, -⟩ := command_exact log (holding ⟨#[1, 2, 3]⟩) "p" []
    have shut : Handle.open (holding ⟨#[1, 2, 3]⟩) (.ofText "p") = .error (.truncated 3 1600) := by
      rw [path]
      rfl
    have defect : Defect (holding ⟨#[1, 2, 3]⟩) "p" {
        what := "failed to open plan p"
        causes := ["plan region is 3 bytes, need at least 1600"] } := .shut shut
    obtain ⟨report, shows, done⟩ := refused _ defect
    cases shows
    rw [done, visit_of_open_error shut, opening, path]
    rfl
  case missing =>
    obtain ⟨-, -, -, refused, -⟩ := command_exact log {} "p" []
    have shut : Handle.open {} (.ofText "p") = .error (.io .missing) := by
      rw [path]
      rfl
    have defect : Defect {} "p" {
        what := "failed to open plan p"
        causes := ["I/O error: No such file or directory (os error 2)",
          "No such file or directory (os error 2)"] } := .shut shut
    obtain ⟨report, shows, done⟩ := refused _ defect
    cases shows
    rw [done, visit_of_open_error shut, opening, path]
    rfl

end Inspection

end TransferLedger
