import TransferLedger.Proofs.Packing

/-! Plan files made in place.

Everything that is wrong with an order is found before its file is touched.  After that the
file is emptied, brought to its length and laid out through a window, and no step fails any
more: what the file held before is gone, and it opens as the plan that was ordered.
-/

namespace TransferLedger.Plan.InPlace

open Volume (Path Place File)

variable {order : Order} {volume : Volume} {path : Path} {place : Place} {fault : Fault}

theorem create_refused (refused : order.validate = .error fault) :
    create volume path order = (.error (.fault fault), volume) := by
  have first : (order.validate >>= fun _ => order.regionLength) = .error fault := by
    rw [refused, error_bind]
  rw [create, first]

theorem create_misplaced (valid : order.Valid) {missed : Volume.Fault}
    (lost : volume.filePlace path = .error missed) :
    create volume path order = (.error (.fault (.io missed)), volume) := by
  have first : (order.validate >>= fun _ => order.regionLength) =
      .ok (Layout.regionLength order.items.length order.stringsLength) := by
    rw [Order.validate_eq_ok_iff.2 valid, ok_bind, Order.regionLength_eq valid]
  rw [create, first]
  dsimp only
  rw [lost]

/-- The file is emptied and filled again, so its old content is nowhere left. -/
theorem create_eq (valid : order.Valid) (found : volume.filePlace path = .ok place) :
    create volume path order =
      (.ok { backing := .file place order.image.size, count := UInt32.ofNat order.items.length },
        volume.put place (.file { bytes := order.image })) := by
  let length := Layout.regionLength order.items.length order.stringsLength
  let blank := Bytes.resize .empty length
  have named := Volume.ne_root_of_filePlace found
  have size : order.image.size = length := Order.size_image valid.header
  have blankSize : blank.size = length :=
    Bytes.size_padTo (by rw [Bytes.size_slice, ByteArray.size_empty]; omega)
  have first : (order.validate >>= fun _ => order.regionLength) = .ok length := by
    rw [Order.validate_eq_ok_iff.2 valid, ok_bind, Order.regionLength_eq valid]
  have shown : ({ bytes := blank } : File).window length = blank := by
    have whole := ({ bytes := blank } : File).window_size
    rwa [blankSize] at whole
  have laid : InPlace.order order blank = (.ok (), order.image) := order_eq valid blankSize
  have stored : ({ bytes := blank } : File).store order.image = { bytes := order.image } :=
    Handle.store_whole (size.trans blankSize.symm)
  rw [create, first]
  dsimp only
  rw [found]
  dsimp only
  simp only [Handle.bytes, Handle.store, Handle.settle, Handle.fileAt_put named, Volume.put_put]
  rw [shown, laid, stored, Order.count_eq_ok valid.count, ok_bind, mapError_ok, size]
  rfl

/-- The three ways in which making a plan ends. -/
theorem create_cases (order : Order) (volume : Volume) (path : Path) :
    (∃ fault, order.validate = .error fault ∧
      create volume path order = (.error (.fault fault), volume)) ∨
    (∃ missed, order.Valid ∧ volume.filePlace path = .error missed ∧
      create volume path order = (.error (.fault (.io missed)), volume)) ∨
    (∃ place, order.Valid ∧ volume.filePlace path = .ok place ∧
      create volume path order =
        (.ok { backing := .file place order.image.size, count := UInt32.ofNat order.items.length },
          volume.put place (.file { bytes := order.image }))) := by
  cases checked : order.validate with
  | error fault => exact .inl ⟨fault, rfl, create_refused checked⟩
  | ok _ =>
      have valid := Order.validate_eq_ok_iff.1 checked
      cases found : volume.filePlace path with
      | error missed => exact .inr (.inl ⟨missed, valid, rfl, create_misplaced valid found⟩)
      | ok place => exact .inr (.inr ⟨place, valid, rfl, create_eq valid found⟩)

/-- But for the file system, only the validation of the order refuses it. -/
theorem create_eq_error_iff (ofOrder : ∀ missed, fault ≠ .io missed) :
    (create volume path order).1 = .error (.fault fault) ↔ order.validate = .error fault := by
  constructor
  · intro failed
    rcases create_cases order volume path with ⟨found, refused, ended⟩ |
      ⟨missed, _, _, ended⟩ | ⟨place, _, _, ended⟩
    · rw [ended] at failed
      cases failed
      exact refused
    · rw [ended] at failed
      cases failed
      exact absurd rfl (ofOrder missed)
    · rw [ended] at failed
      cases failed
  · intro refused
    rw [create_refused refused]

/-- In place or not, the same plan is made. -/
theorem create_matches (order : Order) (volume : Volume) (path : Path) :
    create volume path order = ((Handle.create volume path order).1.mapError Stop.fault,
      (Handle.create volume path order).2) := by
  rcases create_cases order volume path with ⟨fault, refused, ended⟩ |
    ⟨missed, valid, lost, ended⟩ | ⟨place, valid, found, ended⟩
  · have plain : Handle.create volume path order = (.error fault, volume) := by
      simp only [Handle.create, refused]
    rw [ended, plain]
    rfl
  · have plain : Handle.create volume path order = (.error (.io missed), volume) := by
      simp only [Handle.create, Order.validate_eq_ok_iff.2 valid, Order.count_eq_ok valid.count,
        Order.regionLength_eq valid, lost]
    rw [ended, plain]
    rfl
  · rw [ended, Handle.create_eq valid found]
    rfl

/-- The order has replaced what was at the place, and nothing else has changed. -/
structure Replaces (order : Order) (volume : Volume) (path : Path) (place : Place)
    (handle : Handle) (after : Volume) : Prop where
  content : ∃ bytes, after.read path = .ok bytes ∧ order.regionLength = .ok bytes.size ∧
    ∀ buffer, buffer.size = bytes.size → InPlace.order order buffer = (.ok (), bytes)
  elsewhere : ∀ other, other ≠ place → after.node? other = volume.node? other
  count : handle.count.toNat = order.items.length
  length : handle.regionLength after = order.regionLength
  opened : ∃ opened, Handle.open after path = .ok opened ∧ opened.count = handle.count ∧
    opened.regionLength after = handle.regionLength after

theorem replaces_create (valid : order.Valid) (found : volume.filePlace path = .ok place) :
    Replaces order volume path place
      { backing := .file place order.image.size, count := UInt32.ofNat order.items.length }
      (volume.put place (.file { bytes := order.image })) := by
  have named := Volume.ne_root_of_filePlace found
  have size := Order.size_image valid.header
  have there := Volume.lookup_put found { bytes := order.image }
  constructor
  · refine ⟨order.image, ?_, ?_, fun buffer same => order_eq valid (same.trans size)⟩
    · rw [Volume.read, there, ok_bind]
    · rw [Order.regionLength_eq valid, size]
  · intro other different
    exact Volume.node?_put_of_ne different _ _
  · exact UInt32.toNat_ofNat_of_lt valid.count
  · rw [Handle.regionLength, (Handle.shows_file named).view_eq, Order.regionLength_eq valid, size]
  · exact ⟨_, Handle.open_created valid found, rfl, rfl⟩

/-- An order that is refused, for what is too long in it or for the number of its transfers,
leaves all files as they are; any other one replaces the whole file, whatever was in it. -/
theorem create_exact (order : Order) (volume : Volume) (path : Path) :
    (∀ fault, order.validate = .error fault →
      create volume path order = (.error (.fault fault), volume)) ∧
    (UInt32.size ≤ order.items.length → create volume path order =
      (.error (.fault (.tooManyTransfers order.items.length)), volume)) ∧
    (order.validate = .ok () ↔ order.items.length < UInt32.size ∧
      (∀ field length capacity, order.validate ≠ .error (.fieldTooLong field length capacity)) ∧
      ∀ index length, order.validate ≠ .error (.stringTooLong index length)) ∧
    (∀ field length capacity,
      (create volume path order).1 = .error (.fault (.fieldTooLong field length capacity)) ↔
        order.validate = .error (.fieldTooLong field length capacity)) ∧
    (∀ index length, (create volume path order).1 = .error (.fault (.stringTooLong index length)) ↔
      order.validate = .error (.stringTooLong index length)) ∧
    (∀ reason after, create volume path order = (.error reason, after) → after = volume) ∧
    (order.validate = .ok () → ∀ place, volume.filePlace path = .ok place → ∃ handle after,
      create volume path order = (.ok handle, after) ∧
        Replaces order volume path place handle after) ∧
    create volume path order = ((Handle.create volume path order).1.mapError Stop.fault,
      (Handle.create volume path order).2) := by
  refine ⟨fun fault => create_refused, fun many => create_refused (Order.validate_crowded many),
    Order.validate_eq_ok_iff_not_tooLong, fun field length capacity => create_eq_error_iff nofun,
    fun index length => create_eq_error_iff nofun, fun reason after failed => ?_,
    fun checked place found => ?_, create_matches order volume path⟩
  · rcases create_cases order volume path with ⟨_, _, ended⟩ | ⟨_, _, _, ended⟩ | ⟨_, _, _, ended⟩
    · rw [ended] at failed
      cases failed
      rfl
    · rw [ended] at failed
      cases failed
      rfl
    · rw [ended] at failed
      cases failed
  · have valid := Order.validate_eq_ok_iff.1 checked
    exact ⟨_, _, create_eq valid found, replaces_create valid found⟩

/-- A plan of one transfer in place of a file that is longer than it. -/
theorem create_exact_longerFile :
    let volume : Volume := {
      nodes := [({ depth := 1, names := ["plan"] },
        .file { bytes := ⟨Array.replicate 5000 0xAA⟩ })] }
    let path : Path := { parts := ["plan"] }
    let order : Order := { items := [{ source := "a", destination := "b" }] }
    ∃ handle after, create volume path order = (.ok handle, after) ∧
      Replaces order volume path { depth := 1, names := ["plan"] } handle after := by
  intro volume path order
  obtain ⟨-, -, -, -, -, -, made, -⟩ := create_exact order volume path
  exact made rfl _ rfl

/-- A path that can be written to is not enough for an order of one transfer too many. -/
theorem create_crowded :
    let order : Order := { items := List.replicate UInt32.size {} }
    let path : Path := { parts := ["plan"] }
    ({} : Volume).filePlace path = .ok { depth := 1, names := ["plan"] } ∧
      order.validate = .error (.tooManyTransfers UInt32.size) ∧
      create {} path order = (.error (.fault (.tooManyTransfers UInt32.size)), {}) := by
  intro order path
  have length : order.items.length = UInt32.size := List.length_replicate
  have crowded : order.validate = .error (.tooManyTransfers UInt32.size) := by
    rw [Order.validate_crowded (Nat.le_of_eq length.symm), length]
  exact ⟨rfl, crowded, create_refused crowded⟩

end TransferLedger.Plan.InPlace
