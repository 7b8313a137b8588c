import TransferLedger.Plan.Handle
import TransferLedger.Proofs.Volume
import TransferLedger.Proofs.Words

namespace TransferLedger.Plan

open Volume (Path Place File)

/-! Handles on the plan of an order.

A plan that was made in memory, made in a file or opened again shows the region
of its order, and what is stored through a handle is what the handle shows next.
-/

namespace Order

variable {order : Order}

theorem regionLength_eq (valid : order.Valid) :
    order.regionLength = .ok (Layout.regionLength order.items.length order.stringsLength) := by
  have count : (UInt32.ofNat order.items.length).toNat = order.items.length :=
    UInt32.toNat_ofNat_of_lt valid.count
  rw [regionLength, count_eq_ok valid.count, ok_bind, count]

theorem writeTo_eq (valid : order.Valid) {buffer : ByteArray}
    (long : buffer.size = Layout.regionLength order.items.length order.stringsLength) :
    order.writeTo buffer = .ok order.image := by
  rw [writeTo, validate_eq_ok_iff.2 valid, ok_bind, regionLength_eq valid, ok_bind,
    if_neg (fun differs => differs long)]

end Order

namespace Handle

/-- The handle was made for the plan of an order, which nothing was done with. -/
inductive Made (order : Order) : Volume → Handle → Prop where
  | inMemory {volume : Volume} {handle : Handle} (done : createInMemory order = .ok handle) :
      Made order volume handle
  | created {volume written : Volume} {path : Path} {handle : Handle}
      (done : create volume path order = (.ok handle, written)) : Made order written handle
  | opened {volume written : Volume} {path : Path} {first handle : Handle}
      (done : create volume path order = (.ok first, written))
      (taken : «open» written path = .ok handle) : Made order written handle

variable {order : Order} {volume written : Volume} {path : Path} {place : Place}
variable {handle first : Handle} {region after : Region} {item : Order.Item} {index : UInt32}

theorem createInMemory_eq (valid : order.Valid) :
    createInMemory order =
      .ok { backing := .memory order.image, count := UInt32.ofNat order.items.length } := by
  rw [createInMemory, Order.validate_eq_ok_iff.2 valid, ok_bind, Order.count_eq_ok valid.count,
    ok_bind, Order.regionLength_eq valid, ok_bind, Order.writeTo_eq valid (Bytes.size_zeros _),
    ok_bind]

theorem create_eq (valid : order.Valid) (found : volume.filePlace path = .ok place) :
    create volume path order =
      (.ok { backing := .file place order.image.size, count := UInt32.ofNat order.items.length },
        volume.put place (.file { bytes := order.image })) := by
  have written := Order.writeTo_eq valid (Bytes.size_zeros _)
  simp only [create, Order.validate_eq_ok_iff.2 valid, Order.count_eq_ok valid.count,
    Order.regionLength_eq valid, found, written, Order.size_image valid.header]

theorem open_eq {file : File} (found : volume.lookup path = .ok (place, .file file))
    (taken : Region.ofBytes file.bytes = .ok region) :
    «open» volume path =
      .ok { backing := .file place file.bytes.size, count := region.count } := by
  rw [«open», found, mapError_ok, ok_bind]
  dsimp only
  rw [taken, ok_bind]

theorem open_created (valid : order.Valid) (found : volume.filePlace path = .ok place) :
    «open» (volume.put place (.file { bytes := order.image })) path =
      .ok {
        backing := .file place order.image.size
        count := UInt32.ofNat order.items.length } := by
  have there := Volume.lookup_put found { bytes := order.image }
  have taken : Region.ofBytes order.image = .ok (Region.ofOrder order) :=
    (Region.keeps_ofOrder valid).ofBytes_eq valid
  rw [open_eq there taken]
  rfl

/-! ## The region behind a handle -/

/-- The handle gives access to a region, and to no directory. -/
structure Shows (handle : Handle) (volume : Volume) (region : Region) : Prop where
  region : handle.region volume = .ok region
  named : ∀ place length, handle.backing = .file place length → place ≠ .root

theorem fileAt_put (named : place ≠ .root) (file : File) :
    (volume.put place (.file file)).fileAt place = file := by
  rw [Volume.fileAt, Volume.node?_put_self named]

theorem store_whole {bytes region : ByteArray} (size : region.size = bytes.size) :
    ({ bytes } : File).store region = { bytes := region } := by
  have fits : (bytes ++ ByteArray.empty).size ≤ region.size :=
    Nat.le_of_eq (by rw [ByteArray.append_empty, size])
  have shown : Bytes.splice (Bytes.padTo region.size (bytes ++ .empty)) 0 region = region :=
    Bytes.splice_whole (Bytes.size_padTo fits).symm
  have rest : Bytes.slice region region.size 0 = .empty := ByteArray.extract_same
  simp only [File.store, shown, ← size, Bytes.slice_all, Nat.sub_self, rest]

theorem shows_file {bytes : ByteArray} {count : UInt32} (named : place ≠ .root) :
    Shows { backing := .file place bytes.size, count } (volume.put place (.file { bytes }))
      { count, bytes } where
  region := by
    have whole : ({ bytes } : File).window bytes.size = bytes := File.window_size { bytes }
    simp only [Handle.region, Handle.bytes, fileAt_put named, whole, if_true]
  named _ _ same := by cases same; exact named

theorem isMapped_of_region (shown : handle.region volume = .ok region) :
    handle.isMapped = true ∧ region = { count := handle.count, bytes := handle.bytes volume } := by
  unfold Handle.region at shown
  split at shown
  · rename_i mapped
    exact ⟨mapped, (Except.ok.inj shown).symm⟩
  · cases shown

/-- What is stored is shown, as long as the region keeps its count and its size. -/
theorem Shows.store (shown : handle.Shows volume region) (count : after.count = region.count)
    (size : after.bytes.size = region.bytes.size) :
    (handle.store volume after.bytes).1.Shows (handle.store volume after.bytes).2 after := by
  obtain ⟨mapped, rfl⟩ := isMapped_of_region shown.region
  have named := shown.named
  obtain ⟨afterCount, afterBytes⟩ := after
  simp only at count size
  subst count
  obtain ⟨backing, handleCount, isMapped⟩ := handle
  cases backing with
  | memory bytes =>
      constructor
      · exact if_pos mapped
      · intro place length same
        cases same
  | file place length =>
      have notRoot : place ≠ .root := named place length rfl
      have long : afterBytes.size = length := by
        rw [size]
        exact Bytes.size_padTo (by rw [Bytes.size_slice]; omega)
      constructor
      · subst long
        simp only [store, Handle.region, Handle.bytes, if_pos mapped, fileAt_put notRoot,
          File.window_store]
      · exact named

/-! ## Letting go of a region -/

theorem writeBack_ok (handle : Handle) (volume : Volume) :
    handle.writeBack volume (.ok ()) = (.ok (), handle.settle volume) := by
  obtain ⟨backing, count, isMapped⟩ := handle
  cases backing with
  | memory bytes => rfl
  | file place length => rfl

/-- What is answered is what the system says, whatever is in the volume. -/
theorem writeBack_fst (handle : Handle) (volume other : Volume) (said : Except Volume.Fault Unit) :
    (handle.writeBack volume said).1 = (handle.writeBack other said).1 := by
  obtain ⟨backing, count, isMapped⟩ := handle
  cases backing with
  | memory bytes => rfl
  | file place length =>
      cases said with
      | ok done => rfl
      | error fault => rfl

/-- The bytes are written back, or all is left as it is. -/
theorem writeBack_cases (handle : Handle) (volume : Volume) (said : Except Volume.Fault Unit) :
    (handle.writeBack volume said).2 = handle.settle volume ∨
      (handle.writeBack volume said).2 = volume := by
  cases said with
  | ok done => exact .inl (congrArg Prod.snd (writeBack_ok handle volume))
  | error fault =>
      obtain ⟨backing, count, isMapped⟩ := handle
      cases backing with
      | memory bytes => exact .inl rfl
      | file place length => exact .inr rfl

/-- Whatever the system says of the bytes, the region is let go of. -/
theorem unmap_snd (handle : Handle) (volume : Volume) (said : Except Volume.Fault Unit) :
    (handle.unmap volume said).2 = ({ handle with isMapped := false },
      if handle.isMapped then (handle.writeBack volume said).2 else volume) := by
  obtain ⟨backing, count, isMapped⟩ := handle
  cases isMapped with
  | true => rfl
  | false => rfl

theorem release_eq (handle : Handle) (volume : Volume) :
    handle.release volume = ({ handle with isMapped := false },
      if handle.isMapped then handle.settle volume else volume) := by
  rw [release, unmap_snd, writeBack_ok]

/-! ## Plans that were just made -/

theorem valid_of_createInMemory (done : createInMemory order = .ok handle) : order.Valid := by
  rw [createInMemory, check_bind_eq_ok_iff] at done
  exact Order.validate_eq_ok_iff.1 done.1

theorem valid_of_create (done : create volume path order = (.ok handle, written)) :
    order.Valid := by
  cases checked : order.validate with
  | ok _ => exact Order.validate_eq_ok_iff.1 checked
  | error fault => simp only [create, checked, Prod.mk.injEq, reduceCtorEq, false_and] at done

theorem place_of_create (valid : order.Valid)
    (done : create volume path order = (.ok handle, written)) :
    ∃ place, volume.filePlace path = .ok place := by
  cases found : volume.filePlace path with
  | ok place => exact ⟨place, rfl⟩
  | error fault =>
      simp only [create, Order.validate_eq_ok_iff.2 valid, Order.count_eq_ok valid.count,
        Order.regionLength_eq valid, found, Prod.mk.injEq, reduceCtorEq, false_and] at done

theorem Made.shows (made : Made order volume handle) (valid : order.Valid) :
    handle.Shows volume (Region.ofOrder order) := by
  cases made with
  | inMemory done =>
      rw [createInMemory_eq valid] at done
      cases done
      exact ⟨rfl, fun _ _ same => by cases same⟩
  | created done =>
      obtain ⟨place, found⟩ := place_of_create valid done
      rw [create_eq valid found] at done
      cases done
      exact shows_file (Volume.ne_root_of_filePlace found)
  | opened done taken =>
      obtain ⟨place, found⟩ := place_of_create valid done
      rw [create_eq valid found] at done
      cases done
      rw [open_created valid found] at taken
      cases taken
      exact shows_file (Volume.ne_root_of_filePlace found)

/-- Everything that can be asked of the plan is answered as the order says. -/
structure Reproduces (order : Order) (volume : Volume) (handle : Handle) : Prop where
  count : handle.count.toNat = order.items.length
  header : handle.header volume =
    .ok { order.header with transferCount := UInt32.ofNat order.items.length }
  jobStatus : handle.jobStatus volume = .ok .inProgress
  regionLength : handle.regionLength volume =
    .ok (1600 + 48 * order.items.length + order.stringsLength)
  transfers : ∀ index item, order.items[index.toNat]? = some item → ∃ record,
    handle.record volume index = .ok record ∧ record.index = index ∧
    record.descriptor.modifiedTime = item.modifiedTime ∧ record.descriptor.size = item.size ∧
    record.descriptor.sourceOffset.toNat =
      1600 + 48 * order.items.length + Order.lengthOf (order.items.take index.toNat) ∧
    record.descriptor.sourceLength.toNat = item.source.utf8ByteSize ∧
    record.descriptor.destinationLength.toNat = item.destination.utf8ByteSize ∧
    handle.transferStatus volume record = .ok .notStarted ∧
    handle.completionTime volume record = .ok 0 ∧
    handle.strings volume index = .ok (item.source, item.destination)
  absent : ∀ index, order.items.length ≤ index.toNat →
    handle.record volume index = .error (.indexOutOfRange index handle.count) ∧
    handle.strings volume index = .error (.indexOutOfRange index handle.count)

theorem view_of_region {α : Type} (shown : handle.region volume = .ok region)
    (operation : Region → Except Fault α) : handle.view volume operation = operation region := by
  rw [view, shown, ok_bind]

theorem update_of_region {α : Type} (shown : handle.region volume = .ok region)
    (change : Region → α × Region) :
    handle.update volume (fun region => .ok (change region)) =
      (.ok (change region).1, handle.store volume (change region).2.bytes) := by
  rw [update, view_of_region shown]

theorem Shows.view_eq {α : Type} (shown : handle.Shows volume region)
    (operation : Region → Except Fault α) : handle.view volume operation = operation region :=
  view_of_region shown.region operation

theorem Shows.count_eq (shown : handle.Shows volume region) : handle.count = region.count := by
  obtain ⟨_, rfl⟩ := isMapped_of_region shown.region
  rfl

theorem reproduces (shown : handle.Shows volume (Region.ofOrder order)) (valid : order.Valid) :
    handle.Reproduces order volume := by
  have kept := Region.keeps_ofOrder valid
  have count : handle.count = (Region.ofOrder order).count := shown.count_eq
  constructor
  · rw [count]
    exact kept.count
  · exact (shown.view_eq _).trans (kept.header_eq valid)
  · exact (shown.view_eq _).trans (Region.jobStatus_ofOrder valid)
  · have size := kept.size_eq valid
    rw [regionLength_literal] at size
    rw [regionLength, shown.view_eq, size]
  · intro index item found
    refine ⟨_, (shown.view_eq _).trans (kept.record_eq valid found), rfl, rfl, rfl, ?_, ?_, ?_, ?_,
      ?_, ?_⟩
    · rw [← regionLength_literal]
      exact valid.toNat_sourceOffset found
    · exact valid.toNat_sourceLength found
    · exact valid.toNat_destinationLength found
    · exact (shown.view_eq _).trans (Region.transferStatus_ofOrder valid found)
    · rw [completionTime, shown.view_eq, Region.completionTime_ofOrder valid found]
    · exact (shown.view_eq _).trans (kept.strings_eq valid found)
  · intro index behind
    have unknown : (Region.ofOrder order).count ≤ index := by
      rw [UInt32.le_iff_toNat_le, kept.count]
      exact behind
    have refused := Region.record_eq_error unknown
    rw [record, strings, shown.view_eq, shown.view_eq, count]
    exact ⟨refused, Region.strings_eq_error unknown⟩

/-- A valid order can be laid out in memory and in any file, the file can be opened,
and all three handles give back what was ordered. -/
theorem made_reproduces (valid : order.validate = .ok ()) :
    (∃ handle, createInMemory order = .ok handle) ∧
    (∀ volume path place, volume.filePlace path = .ok place → ∃ handle written opened,
      create volume path order = (.ok handle, written) ∧ «open» written path = .ok opened) ∧
    ∀ volume handle, Made order volume handle → handle.Reproduces order volume := by
  have fits := Order.validate_eq_ok_iff.1 valid
  refine ⟨⟨_, createInMemory_eq fits⟩, ?_, ?_⟩
  · intro volume path place found
    exact ⟨_, _, _, create_eq fits found, open_created fits found⟩
  · intro volume handle made
    exact reproduces (made.shows fits) fits

/-- An order with an empty and a two-byte string, made in the file `plan`. -/
theorem made_reproduces_emptySource :
    let order : Order := { items := [{ source := "", destination := "é", size := 7 }] }
    order.validate = .ok () ∧
    ∃ handle written, create {} { parts := ["plan"] } order = (.ok handle, written) ∧
      handle.Reproduces order written := by
  intro order
  have valid : order.validate = .ok () := by rfl
  obtain ⟨_, inFile, exact⟩ := made_reproduces valid
  obtain ⟨handle, written, _, done, _⟩ := inFile {} { parts := ["plan"] } _ rfl
  exact ⟨valid, handle, written, done, exact written handle (.created done)⟩

end Handle

end TransferLedger.Plan
