import TransferLedger.Proofs.Handle

/-! Which files are taken up as plans, and what can then be asked of them.

A file is checked once, when it is opened.  Its bytes may be overwritten afterwards, the
header with its count included.  But the handle keeps the count and the length that were
checked, so every record that it counts stays inside the region, whatever the bytes are.
-/

namespace TransferLedger

namespace Volume

variable {volume later : Volume} {path : Path} {place : Place} {file now : File}
variable {offset : Nat} {patch : ByteArray}

/-- In the later volume the file at the path may have other bytes, but as many of them. -/
def Overwritten (path : Path) (volume later : Volume) : Prop :=
  ∃ place file now, volume.lookup path = .ok (place, .file file) ∧
    later.lookup path = .ok (place, .file now) ∧ now.bytes.size = file.bytes.size

theorem Overwritten.refl (found : volume.lookup path = .ok (place, .file file)) :
    volume.Overwritten path volume :=
  ⟨place, file, file, found, found, rfl⟩

theorem overwritten_put (found : volume.lookup path = .ok (place, .file file))
    (size : now.bytes.size = file.bytes.size) :
    volume.Overwritten path (volume.put place (.file now)) :=
  ⟨place, file, now, found, lookup_put (filePlace_of_lookup found) now, size⟩

theorem File.bytes_overwrite (within : offset + patch.size ≤ file.bytes.size) :
    (file.overwrite offset patch).bytes = Bytes.splice file.bytes offset patch := by
  have exact : Bytes.padTo (offset + patch.size) file.bytes = file.bytes := by
    rw [Bytes.padTo, Nat.sub_eq_zero_of_le within]
    exact ByteArray.append_empty
  rw [File.overwrite]
  split
  · rename_i empty
    have none : patch = .empty :=
      ByteArray.size_eq_zero_iff.1 (by simpa [ByteArray.isEmpty] using empty)
    subst none
    have inside : offset ≤ file.bytes.size := within
    have whole := Bytes.slice_append_slice inside
    rw [Bytes.slice, Bytes.slice, Nat.zero_add, Nat.add_sub_cancel' inside] at whole
    rw [Bytes.splice_eq, ByteArray.append_empty]
    exact whole.symm
  · dsimp only
    rw [exact]

/-- A patch that stays inside of the file overwrites it in place. -/
theorem overwritten_overwrite (found : volume.lookup path = .ok (place, .file file))
    (within : offset + patch.size ≤ file.bytes.size) :
    ∃ later, volume.overwrite path offset patch = .ok later ∧
      later.read path = .ok (Bytes.splice file.bytes offset patch) ∧
      volume.Overwritten path later := by
  have written := File.bytes_overwrite within
  have size : (file.overwrite offset patch).bytes.size = file.bytes.size := by
    rw [written, Bytes.size_splice within]
  refine ⟨_, ?_, ?_, overwritten_put found size⟩
  · rw [overwrite, found, ok_bind]
  · rw [read, lookup_put (filePlace_of_lookup found), ok_bind, ← written]

end Volume

namespace Plan

open Bytes (slice)
open Volume (Path Place File)

variable {α β : Type}

/-! ## Faults that are not of the region -/

/-- The operation did not ask for bytes outside of the region. -/
def InBounds (result : Except Fault α) : Prop :=
  ∀ offset length size, result ≠ .error (.outOfBounds offset length size)

theorem inBounds_ok (value : α) : InBounds (.ok value : Except Fault α) := by
  intro offset length size same
  cases same

theorem InBounds.bind {first : Except Fault α} {next : α → Except Fault β}
    (begun : InBounds first) (goes : ∀ value, InBounds (next value)) :
    InBounds (first >>= next) := by
  intro offset length size failed
  rcases bind_eq_error_iff.1 failed with early | ⟨value, _, late⟩
  · exact begun offset length size early
  · exact goes value offset length size late

theorem inBounds_known [Coded α] (raw : Int) : InBounds (known raw : Except Fault α) := by
  intro offset length size failed
  rw [known] at failed
  cases read : (Coded.ofCode raw : Except UnknownValue α) with
  | ok value => simp [read] at failed
  | error unknown => simp [read] at failed

theorem inBounds_text (what : String) (bytes : ByteArray) : InBounds (text what bytes) := by
  intro offset length size failed
  rw [text] at failed
  cases read : Text.Utf8.decode bytes with
  | ok value => simp [read] at failed
  | error fault => simp [read] at failed

theorem inBounds_textField (field : TextField) (bytes : ByteArray) :
    InBounds (field.read bytes) := by
  refine InBounds.bind ?_ fun _ => inBounds_text _ _
  intro offset length size failed
  rw [TextField.checkLength] at failed
  split at failed <;> cases failed

theorem inBounds_header (bytes : ByteArray) : InBounds (Header.read bytes) := by
  rw [Header.read]
  split
  · intro offset length size failed
    cases failed
  dsimp only
  split
  · intro offset length size failed
    cases failed
  refine (inBounds_known _).bind fun priority => (inBounds_known _).bind fun route =>
    (inBounds_known _).bind fun logLevel => ?_
  refine (inBounds_textField _ _).bind fun contentType =>
    (inBounds_textField _ _).bind fun contentEncoding =>
    (inBounds_textField _ _).bind fun blockBlobTier =>
    (inBounds_textField _ _).bind fun pageBlobTier =>
    (inBounds_textField _ _).bind fun metadata => ?_
  exact inBounds_ok _

namespace Region

variable {region : Region} {bytes : ByteArray} {index other : UInt32} {fault : Fault}

theorem ofBytes_eq_ok_iff :
    ofBytes bytes = .ok region ↔
      Layout.headerSize ≤ bytes.size ∧ ∃ header, Header.read bytes = .ok header ∧
        Layout.stringsAt header.transferCount.toNat ≤ bytes.size ∧
        region = { count := header.transferCount, bytes } := by
  by_cases long : Layout.headerSize ≤ bytes.size
  · rw [ofBytes, if_neg (Nat.not_lt.2 long), bind_eq_ok_iff]
    simp only [long, true_and]
    refine exists_congr fun header => and_congr_right fun _ => ?_
    by_cases whole : Layout.stringsAt header.transferCount.toNat ≤ bytes.size
    · rw [if_neg (Nat.not_lt.2 whole), Except.ok.injEq]
      exact ⟨fun same => ⟨whole, same.symm⟩, fun both => both.2.symm⟩
    · rw [if_pos (Nat.lt_of_not_le whole)]
      exact iff_of_false (by simp) fun both => whole both.1
  · rw [ofBytes, if_pos (Nat.lt_of_not_le long)]
    exact iff_of_false (by simp) fun both => long both.1

theorem ofBytes_eq_error_iff :
    ofBytes bytes = .error fault ↔
      (bytes.size < Layout.headerSize ∧ fault = .truncated bytes.size Layout.headerSize) ∨
      (Layout.headerSize ≤ bytes.size ∧ Header.read bytes = .error fault) ∨
      (Layout.headerSize ≤ bytes.size ∧ ∃ header, Header.read bytes = .ok header ∧
        bytes.size < Layout.stringsAt header.transferCount.toNat ∧
        fault = .truncated bytes.size (Layout.stringsAt header.transferCount.toNat)) := by
  by_cases long : Layout.headerSize ≤ bytes.size
  · rw [ofBytes, if_neg (Nat.not_lt.2 long), bind_eq_error_iff]
    simp only [Nat.not_lt.2 long, long, true_and, false_and, false_or]
    refine or_congr_right (exists_congr fun header => and_congr_right fun _ => ?_)
    by_cases whole : bytes.size < Layout.stringsAt header.transferCount.toNat
    · rw [if_pos whole, Except.error.injEq]
      exact ⟨fun same => ⟨whole, same.symm⟩, fun both => both.2.symm⟩
    · rw [if_neg whole]
      exact iff_of_false (by simp) fun both => whole both.1
  · rw [ofBytes, if_pos (Nat.lt_of_not_le long), Except.error.injEq]
    simp only [Nat.lt_of_not_le long, long, true_and, false_and, or_false]
    exact eq_comm

theorem whole_of_ofBytes (taken : ofBytes bytes = .ok region) :
    region.Whole ∧ region.bytes = bytes := by
  obtain ⟨_, header, _, whole, rfl⟩ := ofBytes_eq_ok_iff.1 taken
  exact ⟨whole, rfl⟩

theorem Whole.long (whole : region.Whole) : Layout.headerSize ≤ region.bytes.size :=
  Nat.le_trans (Nat.le_add_right _ _) whole

theorem Whole.header_eq (whole : region.Whole) :
    region.header = Header.read (slice region.bytes 0 Layout.jobStatusAt) := by
  have within : 0 + Layout.jobStatusAt ≤ region.bytes.size :=
    Nat.le_trans (by decide) whole.long
  rw [header, read_eq within, ok_bind]

theorem Whole.jobStatus_eq (whole : region.Whole) :
    region.jobStatus =
      known (Bytes.LittleEndian.decode (slice region.bytes Layout.jobStatusAt 4)) := by
  have within : Layout.jobStatusAt + 4 ≤ region.bytes.size := whole.long
  rw [jobStatus, read_eq within, ok_bind]

/-! ## Records -/

theorem inBounds_record (whole : region.Whole) (index : UInt32) :
    InBounds (region.record index) := by
  by_cases known : index < region.count
  · rw [whole.record_eq known]
    exact inBounds_ok _
  · rw [record_eq_error (UInt32.not_lt.1 known)]
    intro offset length size failed
    cases failed

theorem recordAt_apart (different : index ≠ other) :
    Layout.recordAt index.toNat + Layout.recordSize ≤ Layout.recordAt other.toNat ∨
      Layout.recordAt other.toNat + Layout.recordSize ≤ Layout.recordAt index.toNat := by
  have apart : index.toNat ≠ other.toNat := fun same => different (UInt32.toNat_inj.1 same)
  simp only [Layout.recordAt, Layout.recordSize]
  omega

end Region

namespace Handle

variable {volume later : Volume} {path : Path} {place : Place} {file : File}
variable {handle : Handle} {region : Region} {fault : Fault}

/-! ## The check when a plan is opened -/

theorem open_of_lookup (found : volume.lookup path = .ok (place, .file file)) :
    «open» volume path = (Region.ofBytes file.bytes >>= fun region =>
      .ok { backing := .file place file.bytes.size, count := region.count }) := by
  rw [«open», found, mapError_ok, ok_bind]

theorem lookup_of_open (taken : «open» volume path = .ok handle) :
    ∃ place file, volume.lookup path = .ok (place, .file file) := by
  cases found : volume.lookup path with
  | error fault => simp [«open», found] at taken
  | ok target =>
      obtain ⟨place, node⟩ := target
      cases node with
      | file file => exact ⟨place, file, rfl⟩
      | directory => simp [«open», found] at taken

theorem open_eq_ok_iff (found : volume.lookup path = .ok (place, .file file)) :
    «open» volume path = .ok handle ↔
      Layout.headerSize ≤ file.bytes.size ∧ ∃ header, Header.read file.bytes = .ok header ∧
        Layout.stringsAt header.transferCount.toNat ≤ file.bytes.size ∧
        handle = { backing := .file place file.bytes.size, count := header.transferCount } := by
  rw [open_of_lookup found, bind_eq_ok_iff]
  constructor
  · rintro ⟨region, taken, made⟩
    obtain ⟨long, header, read, whole, rfl⟩ := Region.ofBytes_eq_ok_iff.1 taken
    exact ⟨long, header, read, whole, (Except.ok.inj made).symm⟩
  · rintro ⟨long, header, read, whole, rfl⟩
    exact ⟨_, Region.ofBytes_eq_ok_iff.2 ⟨long, header, read, whole, rfl⟩, rfl⟩

theorem open_eq_error_iff (found : volume.lookup path = .ok (place, .file file)) :
    «open» volume path = .error fault ↔ Region.ofBytes file.bytes = .error fault := by
  rw [open_of_lookup found, bind_eq_error_iff]
  exact ⟨fun either => either.elim id nofun, Or.inl⟩

/-- A handle that was opened shows what its file holds, as long as the file has its length. -/
theorem region_of_open (taken : «open» volume path = .ok handle)
    (replaced : volume.Overwritten path later) :
    ∃ region, later.read path = .ok region.bytes ∧ handle.Shows later region ∧ region.Whole := by
  obtain ⟨place, file, now, found, there, size⟩ := replaced
  obtain ⟨_, header, _, whole, rfl⟩ := (open_eq_ok_iff found).1 taken
  have named := Volume.ne_root_of_filePlace (Volume.filePlace_of_lookup found)
  refine ⟨{ count := header.transferCount, bytes := now.bytes }, ?_, ⟨?_, ?_⟩, ?_⟩
  · rw [Volume.read, there, ok_bind]
  · rw [Handle.region, if_pos rfl, Handle.bytes]
    dsimp only
    rw [Volume.fileAt_of_lookup there, ← size, File.window_size]
  · intro other length same
    cases same
    exact named
  · rw [Region.Whole]
    dsimp only
    rw [size]
    exact whole

/-! ## What an open handle serves -/

/-- The handle reads the file at the path and has every record that it counts, each in a range
of its own in front of the strings.  It asks for nothing outside of the region. -/
structure Serves (path : Path) (handle : Handle) (volume : Volume) : Prop where
  bytes : ∃ bytes, volume.read path = .ok bytes ∧
    handle.region volume = .ok { count := handle.count, bytes }
  known : ∀ index, (∃ record, handle.record volume index = .ok record) ↔ index < handle.count
  unknown : ∀ index, handle.count ≤ index →
    handle.record volume index = .error (.indexOutOfRange index handle.count)
  range : ∀ index record, handle.record volume index = .ok record →
    record.range = (1600 + 48 * index.toNat, 1648 + 48 * index.toNat) ∧
    record.range.2 ≤ 1600 + 48 * handle.count.toNat ∧
    ∃ length, handle.regionLength volume = .ok length ∧ 1600 + 48 * handle.count.toNat ≤ length
  apart : ∀ index other record peer, handle.record volume index = .ok record →
    handle.record volume other = .ok peer → index ≠ other →
    record.range.2 ≤ peer.range.1 ∨ peer.range.2 ≤ record.range.1
  words : ∀ index record, handle.record volume index = .ok record →
    record.range.1 ≤ Region.completionTimeAt record.index ∧
    Region.completionTimeAt record.index + 8 ≤ Region.transferStatusAt record.index ∧
    Region.transferStatusAt record.index + 4 ≤ record.range.2 ∧
    Region.completionTimeAt record.index % 8 = 0 ∧ Region.transferStatusAt record.index % 4 = 0
  header : InBounds (handle.header volume)
  jobStatus : InBounds (handle.jobStatus volume)
  setJobStatus : ∀ status, (handle.setJobStatus volume status).1 = .ok ()
  record : ∀ index, InBounds (handle.record volume index)
  transferStatus : ∀ record, InBounds (handle.transferStatus volume record)
  completionTime : ∀ record, InBounds (handle.completionTime volume record)
  updateStatus : ∀ record status, InBounds (handle.updateStatus volume record status).1
  stampCompletion : ∀ record nanos, InBounds (handle.stampCompletion volume record nanos).1

theorem Shows.inBounds_update {α : Type} (shown : handle.Shows volume region)
    (change : Region → α × Region) :
    InBounds (handle.update volume fun region => .ok (change region)).1 := by
  rw [update, shown.view_eq]
  exact inBounds_ok _

theorem Shows.serves (shown : handle.Shows volume region) (whole : region.Whole)
    (read : volume.read path = .ok region.bytes) : handle.Serves path volume := by
  have count := shown.count_eq
  have taken : ∀ index, handle.record volume index = region.record index :=
    fun _ => shown.view_eq _
  have range : ∀ index record, handle.record volume index = .ok record →
      index < region.count ∧ record.index = index := by
    intro index record found
    rw [taken] at found
    exact Region.index_of_record whole found
  constructor
  · refine ⟨region.bytes, read, ?_⟩
    rw [count]
    exact shown.region
  · intro index
    rw [taken, count]
    exact Region.record_eq_ok_iff whole
  · intro index unknown
    rw [count] at unknown ⊢
    rw [taken, Region.record_eq_error unknown]
  · intro index record found
    obtain ⟨known, rfl⟩ := range index record found
    have behind := Layout.recordAt_le_stringsAt (UInt32.lt_iff_toNat_lt.1 known)
    have room := whole
    rw [Region.Whole, stringsAt_literal] at room
    rw [stringsAt_literal] at behind
    rw [count]
    refine ⟨?_, behind, region.bytes.size, shown.view_eq _, room⟩
    simp only [Record.range, Layout.recordAt, Layout.headerSize, Layout.recordSize, Prod.mk.injEq]
    omega
  · intro index other record peer found foundToo different
    obtain ⟨_, rfl⟩ := range index record found
    obtain ⟨_, rfl⟩ := range other peer foundToo
    exact Region.recordAt_apart different
  · intro index record _
    simp only [Record.range, Region.completionTimeAt, Region.transferStatusAt, Layout.recordAt,
      Layout.completionTimeAt, Layout.transferStatusAt, Layout.headerSize, Layout.recordSize]
    omega
  · rw [Handle.header, shown.view_eq, whole.header_eq]
    exact inBounds_header _
  · rw [Handle.jobStatus, shown.view_eq, whole.jobStatus_eq]
    exact inBounds_known _
  · intro status
    rw [Handle.setJobStatus, update, shown.view_eq, Region.setJobStatus_eq whole.long, ok_bind]
  · intro index
    rw [taken]
    exact Region.inBounds_record whole index
  · intro record
    rw [Handle.transferStatus, shown.view_eq]
    exact inBounds_known _
  · intro record
    rw [Handle.completionTime, shown.view_eq]
    exact inBounds_ok _
  · intro record status
    exact shown.inBounds_update fun region => region.updateStatus record.index status
  · intro record nanos
    exact shown.inBounds_update fun region => region.stampCompletion record.index nanos

/-- A file is opened exactly if it has a readable header and all the records that the header
counts, and refused for the first of these that it lacks.  The handle shows the bytes of the
file, and serves whatever is written over them. -/
theorem open_exact (found : volume.lookup path = .ok (place, .file file)) :
    (∀ handle, «open» volume path = .ok handle ↔
      1600 ≤ file.bytes.size ∧ ∃ header, Header.read (slice file.bytes 0 1596) = .ok header ∧
        1600 + 48 * header.transferCount.toNat ≤ file.bytes.size ∧
        handle = { backing := .file place file.bytes.size, count := header.transferCount }) ∧
    (∀ fault, «open» volume path = .error fault ↔
      (file.bytes.size < 1600 ∧ fault = .truncated file.bytes.size 1600) ∨
      (1600 ≤ file.bytes.size ∧ Header.read (slice file.bytes 0 1596) = .error fault) ∨
      (1600 ≤ file.bytes.size ∧ ∃ header, Header.read (slice file.bytes 0 1596) = .ok header ∧
        file.bytes.size < 1600 + 48 * header.transferCount.toNat ∧
        fault = .truncated file.bytes.size (1600 + 48 * header.transferCount.toNat))) ∧
    ∀ handle, «open» volume path = .ok handle →
      handle.region volume = .ok { count := handle.count, bytes := file.bytes } ∧
      ∀ later, volume.Overwritten path later → handle.Serves path later := by
  have front : 1600 ≤ file.bytes.size →
      Header.read (slice file.bytes 0 1596) = Header.read file.bytes :=
    fun long => Header.read_slice (Nat.le_trans (by decide) long)
  refine ⟨fun handle => ?_, fun fault => ?_, fun handle taken => ⟨?_, fun later replaced => ?_⟩⟩
  · rw [open_eq_ok_iff found]
    simp only [stringsAt_literal]
    exact and_congr_right fun long => by rw [front long]
  · rw [open_eq_error_iff found, Region.ofBytes_eq_error_iff]
    simp only [stringsAt_literal]
    refine or_congr Iff.rfl (or_congr ?_ ?_)
    · exact and_congr_right fun long => by rw [front long]
    · exact and_congr_right fun long => by rw [front long]
  · obtain ⟨region, read, shown, _⟩ := region_of_open taken (.refl found)
    rw [Volume.read, found, ok_bind, Except.ok.injEq] at read
    rw [shown.region, shown.count_eq, read]
  · obtain ⟨region, read, shown, whole⟩ := region_of_open taken replaced
    exact shown.serves whole read

/-- A plan of two transfers that is opened, and whose version is damaged then. -/
theorem open_exact_damagedVersion :
    let order : Order := { items := [{ source := "a", destination := "b" }, { source := "é" }] }
    let path : Path := { parts := ["plan"] }
    let place : Place := { depth := 1, names := ["plan"] }
    let file : File := { bytes := order.image }
    let volume := ({} : Volume).put place (.file file)
    volume.lookup path = .ok (place, .file file) ∧
    ∃ handle later, «open» volume path = .ok handle ∧ handle.count = 2 ∧
      volume.overwrite path 0 ⟨#[255]⟩ = .ok later ∧ handle.Serves path later := by
  intro order path place file volume
  have valid : order.Valid := Order.validate_eq_ok_iff.1 rfl
  have found : volume.lookup path = .ok (place, .file file) := Volume.lookup_put rfl file
  have long : 0 + (ByteArray.mk #[255]).size ≤ file.bytes.size :=
    Nat.le_trans (by decide) ((Region.keeps_ofOrder valid).long valid)
  obtain ⟨later, patched, _, replaced⟩ := Volume.overwritten_overwrite found long
  have taken : «open» volume path =
      .ok { backing := .file place order.image.size, count := 2 } :=
    open_created valid (rfl : ({} : Volume).filePlace path = .ok place)
  exact ⟨found, _, later, taken, rfl, patched, ((open_exact found).2.2 _ taken).2 later replaced⟩

end Handle

end Plan

end TransferLedger
