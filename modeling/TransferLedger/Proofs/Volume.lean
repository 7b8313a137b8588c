import TransferLedger.Proofs.Bytes
import TransferLedger.Proofs.Except
import TransferLedger.Volume

/-! Files that are saved beside others.

Making directories adds to a volume and takes nothing away.  So a file that was
there is there afterwards, and a place that a path led to is still where it leads.
-/

namespace TransferLedger.Volume

variable {volume larger largest after prepared saved : Volume} {path : Path}
variable {place start next target : Place} {node : Node} {file : File}
variable {steps : List Path.Step} {bytes : ByteArray}

/-- What stands in a volume stands in the larger one. -/
def Extends (volume larger : Volume) : Prop :=
  ∀ place node, volume.node? place = some node → larger.node? place = some node

theorem Extends.refl (volume : Volume) : volume.Extends volume :=
  fun _ _ found => found

theorem Extends.trans (grown : volume.Extends larger) (again : larger.Extends largest) :
    volume.Extends largest :=
  fun place node found => again place node (grown place node found)

theorem extends_put (free : volume.node? place = none) (node : Node) :
    volume.Extends (volume.put place node) := by
  intro other held found
  have different : other ≠ place := by
    rintro rfl
    rw [free] at found
    cases found
  rw [node?_put_of_ne different]
  exact found

/-- To put a node where it stands already changes nothing. -/
theorem extends_put_again (held : volume.node? place = some node) (named : place ≠ .root) :
    volume.Extends (volume.put place node) := by
  intro other found there
  by_cases same : other = place
  · subst same
    rw [node?_put_self named, ← held]
    exact there
  · rw [node?_put_of_ne same]
    exact there

theorem Extends.step {towards : Path.Step} (grown : volume.Extends larger)
    (taken : volume.step start towards = .ok next) : larger.step start towards = .ok next := by
  have directory := node?_of_step taken
  have before : volume.checkDirectory start = .ok () := checkDirectory_eq_ok_iff.2 directory
  have behind : larger.checkDirectory start = .ok () :=
    checkDirectory_eq_ok_iff.2 (grown _ _ directory)
  simp only [Volume.step, before, behind, ok_bind] at taken ⊢
  exact taken

theorem Extends.foldlM_step (grown : volume.Extends larger)
    (followed : steps.foldlM volume.step start = .ok target) :
    steps.foldlM larger.step start = .ok target := by
  induction steps generalizing start with
  | nil => exact followed
  | cons first rest ih =>
      rw [List.foldlM_cons, bind_eq_ok_iff] at followed
      obtain ⟨next, taken, followed⟩ := followed
      rw [List.foldlM_cons, grown.step taken, ok_bind]
      exact ih followed

theorem Extends.resolve (grown : volume.Extends larger)
    (resolved : volume.resolve path = .ok place) : larger.resolve path = .ok place := by
  rw [Volume.resolve, check_bind_eq_ok_iff] at resolved ⊢
  exact ⟨resolved.1, grown.foldlM_step resolved.2⟩

theorem lookup_eq_ok_iff :
    volume.lookup path = .ok (place, node) ↔
      volume.resolve path = .ok place ∧ volume.node? place = some node ∧
        (path.ending = .plain ∨ node = .directory) := by
  cases resolved : volume.resolve path with
  | error fault => simp [lookup, resolved]
  | ok target =>
      by_cases same : target = place
      · subst same
        cases held : volume.node? target with
        | none =>
            by_cases plain : path.ending = .plain <;>
              simp [lookup, resolved, plain, checkDirectory, held]
        | some there =>
            by_cases plain : path.ending = .plain <;> cases there <;> cases node <;>
              simp [lookup, resolved, plain, checkDirectory, held]
      · cases held : volume.node? target with
        | none =>
            by_cases plain : path.ending = .plain <;>
              simp [lookup, resolved, plain, checkDirectory, held, same]
        | some there =>
            by_cases plain : path.ending = .plain <;> cases there <;>
              simp [lookup, resolved, plain, checkDirectory, held, same]

theorem Extends.lookup (grown : volume.Extends larger)
    (found : volume.lookup path = .ok (place, node)) : larger.lookup path = .ok (place, node) := by
  obtain ⟨resolved, held, ending⟩ := lookup_eq_ok_iff.1 found
  exact lookup_eq_ok_iff.2 ⟨grown.resolve resolved, grown _ _ held, ending⟩

theorem Extends.read (grown : volume.Extends larger) (held : volume.read path = .ok bytes) :
    larger.read path = .ok bytes := by
  rw [Volume.read, bind_eq_ok_iff] at held
  obtain ⟨⟨place, node⟩, found, held⟩ := held
  rw [Volume.read, grown.lookup found, ok_bind]
  exact held

theorem Extends.filePlace (grown : volume.Extends larger)
    (found : volume.filePlace path = .ok place) (held : volume.node? place = some (.file file)) :
    larger.filePlace path = .ok place := by
  obtain ⟨plain, resolved, _⟩ := filePlace_eq_ok_iff.1 found
  refine filePlace_eq_ok_iff.2 ⟨plain, grown.resolve resolved, ?_⟩
  rw [grown _ _ held]
  nofun

theorem filePlace_of_lookup (found : volume.lookup path = .ok (place, .file file)) :
    volume.filePlace path = .ok place := by
  obtain ⟨resolved, held, plain | directory⟩ := lookup_eq_ok_iff.1 found
  · refine filePlace_eq_ok_iff.2 ⟨plain, resolved, ?_⟩
    rw [held]
    nofun
  · cases directory

theorem fileAt_of_lookup (found : volume.lookup path = .ok (place, .file file)) :
    volume.fileAt place = file := by
  rw [fileAt, (lookup_eq_ok_iff.1 found).2.1]

/-! ## Windows -/

theorem File.window_size (file : File) : file.window file.bytes.size = file.bytes := by
  have front : Bytes.slice (file.bytes ++ file.beyond) 0 file.bytes.size = file.bytes :=
    Bytes.slice_append_self _ _
  rw [File.window, Bytes.resize, front, Bytes.padTo, Nat.sub_self]
  exact ByteArray.append_empty

theorem File.bytes_store {region : ByteArray} (size : region.size = file.bytes.size) :
    (file.store region).bytes = region := by
  have shown := File.window_store file region
  rwa [size, ← File.size_store file region, File.window_size] at shown

/-! ## Directories -/

theorem ne_root_of_node? (free : volume.node? place ≠ some .directory) : place ≠ .root := by
  intro root
  exact free (by simp only [root, node?, if_true])

theorem ne_root_of_filePlace (found : volume.filePlace path = .ok place) : place ≠ .root :=
  ne_root_of_node? (filePlace_eq_ok_iff.1 found).2.2

theorem isDirectory_iff :
    volume.isDirectory path = true ↔
      ∃ place, volume.resolve path = .ok place ∧ volume.node? place = some .directory := by
  constructor
  · intro there
    rw [isDirectory] at there
    split at there
    · rename_i place found
      obtain ⟨resolved, held, _⟩ := lookup_eq_ok_iff.1 found
      exact ⟨place, resolved, held⟩
    · cases there
  · rintro ⟨place, resolved, held⟩
    rw [isDirectory, lookup_eq_ok_iff.2 ⟨resolved, held, Or.inr rfl⟩]

theorem makeDirectory_eq_ok (made : volume.makeDirectory path = .ok after) :
    ∃ place, volume.resolve path = .ok place ∧ volume.node? place = none ∧
      after = volume.put place .directory := by
  rw [makeDirectory, bind_eq_ok_iff] at made
  obtain ⟨place, resolved, made⟩ := made
  refine ⟨place, resolved, ?_⟩
  cases found : volume.node? place with
  | none =>
      by_cases dot : path.ending = .dot
      · simp [dot, checkDirectory, found] at made
      · simpa [dot, found, eq_comm] using made
  | some node =>
      by_cases dot : path.ending = .dot <;> cases node <;>
        simp [dot, checkDirectory, found] at made

theorem extends_ensureDirectory (volume : Volume) (path : Path) :
    volume.Extends (volume.ensureDirectory path).2 := by
  cases made : volume.makeDirectory path with
  | error fault =>
      simp only [ensureDirectory, made]
      exact .refl volume
  | ok after =>
      obtain ⟨place, _, free, rfl⟩ := makeDirectory_eq_ok made
      simp only [ensureDirectory, made]
      exact extends_put free _

theorem isDirectory_of_ensureDirectory (done : volume.ensureDirectory path = (.ok (), after)) :
    after.isDirectory path = true := by
  cases made : volume.makeDirectory path with
  | error fault =>
      simp only [ensureDirectory, made, Prod.mk.injEq] at done
      obtain ⟨there, rfl⟩ := done
      split at there
      · assumption
      · cases there
  | ok larger =>
      obtain ⟨place, resolved, free, rfl⟩ := makeDirectory_eq_ok made
      simp only [ensureDirectory, made, Prod.mk.injEq, true_and] at done
      subst done
      have named : place ≠ .root := ne_root_of_node? (by rw [free]; nofun)
      exact isDirectory_iff.2
        ⟨place, (extends_put free _).resolve resolved, node?_put_self named _ _⟩

theorem ensureDirectory_of_isDirectory (there : volume.isDirectory path = true) :
    volume.ensureDirectory path = (.ok (), volume) := by
  cases made : volume.makeDirectory path with
  | error fault => simp only [ensureDirectory, made, there, if_true]
  | ok after =>
      obtain ⟨place, resolved, free, _⟩ := makeDirectory_eq_ok made
      obtain ⟨other, same, directory⟩ := isDirectory_iff.1 there
      rw [resolved] at same
      cases same
      rw [free] at directory
      cases directory

theorem extends_makeWay (volume : Volume) (start : Place) (steps : List Path.Step) :
    volume.Extends (volume.makeWay start steps).2 := by
  induction steps generalizing volume start with
  | nil => exact .refl volume
  | cons step rest ih =>
      rw [makeWay]
      split
      · exact .refl volume
      · rename_i next _
        split
        · exact ih volume next
        · exact .refl volume
        · rename_i free
          exact (extends_put free _).trans (ih _ next)

theorem extends_makeDirectories (volume : Volume) (path : Path) :
    volume.Extends (volume.makeDirectories path).2 := by
  have first := extends_ensureDirectory volume path
  rw [makeDirectories]
  split
  · have way := extends_makeWay volume .root path.steps.dropLast
    split
    · rename_i prepared made
      rw [made] at way
      exact way.trans (extends_ensureDirectory prepared path)
    · rename_i made
      rw [made] at way
      exact way
  · rename_i done
    rw [done] at first
    exact first

theorem isDirectory_of_makeDirectories (done : volume.makeDirectories path = (.ok (), after)) :
    after.isDirectory path = true := by
  rw [makeDirectories] at done
  split at done
  · split at done
    · exact isDirectory_of_ensureDirectory done
    · cases done
  · rename_i ensured
    cases done
    exact isDirectory_of_ensureDirectory ensured

theorem makeDirectories_of_isDirectory (there : volume.isDirectory path = true) :
    volume.makeDirectories path = (.ok (), volume) := by
  rw [makeDirectories, ensureDirectory_of_isDirectory there]

/-! ## Saving -/

theorem put_put (volume : Volume) (place : Place) (node other : Node) :
    (volume.put place node).put place other = volume.put place other := by
  have gone : (fun entry : Place × Node => entry.1 != place && entry.1 != place) =
      fun entry => entry.1 != place := by
    funext entry
    rw [Bool.and_self]
  have first : (place != place) = false := bne_self_eq_false place
  simp only [put, List.filter_cons, first, Bool.false_eq_true, if_false, List.filter_filter, gone]

theorem filePlace_put {other : Path} (free : volume.node? place ≠ some .directory) (file : File)
    (found : volume.filePlace other = .ok target) :
    (volume.put place (.file file)).filePlace other = .ok target := by
  obtain ⟨plain, resolved, plan⟩ := filePlace_eq_ok_iff.1 found
  refine filePlace_eq_ok_iff.2 ⟨plain, resolve_put free _ resolved, ?_⟩
  by_cases same : target = place
  · rw [same, node?_put_self (ne_root_of_node? free)]
    nofun
  · rw [node?_put_of_ne same]
    exact plan

theorem isDirectory_put (free : volume.node? place ≠ some .directory) (file : File)
    (there : volume.isDirectory path = true) :
    (volume.put place (.file file)).isDirectory path = true := by
  obtain ⟨target, resolved, directory⟩ := isDirectory_iff.1 there
  have different : target ≠ place := fun same => free (same ▸ directory)
  refine isDirectory_iff.2 ⟨target, resolve_put free _ resolved, ?_⟩
  rw [node?_put_of_ne different]
  exact directory

theorem read_of_filePlace (found : volume.filePlace path = .ok place)
    (held : volume.node? place = some (.file file)) : volume.read path = .ok file.bytes := by
  obtain ⟨plain, resolved, _⟩ := filePlace_eq_ok_iff.1 found
  rw [read, lookup_eq_ok_iff.2 ⟨resolved, held, Or.inl plain⟩, ok_bind]

theorem writeNested_eq_ok (done : volume.writeNested path bytes = (.ok (), saved)) :
    ∃ prepared place, volume.makeDirectories path.parent = (.ok (), prepared) ∧
      prepared.filePlace path = .ok place ∧ saved = prepared.put place (.file { bytes }) := by
  cases made : volume.makeDirectories path.parent with
  | mk result prepared =>
      cases result with
      | error fault => simp [writeNested, made] at done
      | ok _ =>
          cases found : prepared.filePlace path with
          | error fault => simp [writeNested, made, write, found] at done
          | ok place =>
              simp only [writeNested, made, write, found, ok_bind, Prod.mk.injEq, true_and] at done
              exact ⟨prepared, place, rfl, found, done.symm⟩

theorem read_writeNested (done : volume.writeNested path bytes = (.ok (), saved)) :
    saved.read path = .ok bytes := by
  obtain ⟨prepared, place, _, target, rfl⟩ := writeNested_eq_ok done
  have written : prepared.write path bytes = .ok (prepared.put place (.file { bytes })) := by
    rw [write, target, ok_bind]
  exact read_write written

theorem writeNested_of_isDirectory (there : volume.isDirectory path.parent = true)
    (found : volume.filePlace path = .ok place) (bytes : ByteArray) :
    volume.writeNested path bytes = (.ok (), volume.put place (.file { bytes })) := by
  simp only [writeNested, makeDirectories_of_isDirectory there, write, found, ok_bind]

/-- Whatever the plan in its file is, a summary can be saved at its path, and the plan
is read afterwards as it was. -/
def SavesBeside (volume : Volume) (planPath summaryPath : Path) : Prop :=
  ∀ plan summary laid, volume.write planPath plan = .ok laid →
    ∃ saved, laid.writeNested summaryPath summary = (.ok (), saved) ∧
      saved.read planPath = .ok plan

variable {planPath summaryPath : Path} {summaryPlace : Place} {plan summary : ByteArray}

/-- A summary can be saved in every directory that is there. -/
theorem savesBeside_of_isDirectory (found : volume.filePlace planPath = .ok place)
    (there : volume.isDirectory summaryPath.parent = true)
    (beside : volume.filePlace summaryPath = .ok summaryPlace) (apart : summaryPlace ≠ place) :
    volume.SavesBeside planPath summaryPath := by
  intro plan summary laid done
  have free := (filePlace_eq_ok_iff.1 found).2.2
  rw [write, found, ok_bind] at done
  cases done
  have directory := isDirectory_put free { bytes := plan } there
  have target := filePlace_put free { bytes := plan } beside
  have still : (volume.put place (.file { bytes := plan })).node? summaryPlace ≠
      some .directory := (filePlace_eq_ok_iff.1 target).2.2
  refine ⟨_, writeNested_of_isDirectory directory target summary, ?_⟩
  have held : ((volume.put place (.file { bytes := plan })).put summaryPlace
      (.file { bytes := summary })).node? place = some (.file { bytes := plan }) := by
    rw [node?_put_of_ne apart.symm, node?_put_self (ne_root_of_node? free)]
  exact read_of_filePlace (filePlace_put still _ (filePlace_put free _ found)) held

/-- What is known after a save: the plan stands where it stood, the summary is read
back, and the next save is as good as this one. -/
structure Saved (planPath summaryPath : Path) (place : Place) (plan summary : ByteArray)
    (saved : Volume) : Prop where
  found : saved.filePlace planPath = .ok place
  held : saved.node? place = some (.file { bytes := plan })
  read : saved.read summaryPath = .ok summary
  again : saved.SavesBeside planPath summaryPath

theorem SavesBeside.save (beside : volume.SavesBeside planPath summaryPath)
    (found : volume.filePlace planPath = .ok place) (plan summary : ByteArray) :
    ∃ saved, (volume.put place (.file { bytes := plan })).writeNested summaryPath summary =
        (.ok (), saved) ∧ Saved planPath summaryPath place plan summary saved := by
  have free := (filePlace_eq_ok_iff.1 found).2.2
  have laid : volume.write planPath plan = .ok (volume.put place (.file { bytes := plan })) := by
    rw [write, found, ok_bind]
  obtain ⟨_, done, _⟩ := beside plan summary _ laid
  obtain ⟨prepared, summaryPlace, made, target, rfl⟩ := writeNested_eq_ok done
  have grown := extends_makeDirectories (volume.put place (.file { bytes := plan }))
    summaryPath.parent
  rw [made] at grown
  have stands : (volume.put place (.file { bytes := plan })).node? place =
      some (.file { bytes := plan }) := node?_put_self (ne_root_of_filePlace found) _ _
  have held := grown _ _ stands
  have still := grown.filePlace (filePlace_put free _ found) stands
  have room := (filePlace_eq_ok_iff.1 target).2.2
  -- A summary in the place of the plan would be read as the plan, and one of them is longer.
  have apart : summaryPlace ≠ place := by
    rintro rfl
    obtain ⟨saved, longer, read⟩ := beside plan (plan.push 0) _ laid
    simp only [writeNested, made, write, target, ok_bind, Prod.mk.injEq, true_and] at longer
    subst longer
    rw [read_of_filePlace (filePlace_put room _ still)
      (node?_put_self (ne_root_of_filePlace target) _ _)] at read
    have sizes := congrArg ByteArray.size (Except.ok.inj read)
    rw [ByteArray.size_push] at sizes
    omega
  have there := filePlace_put room { bytes := summary } target
  have plans := filePlace_put room { bytes := summary } still
  refine ⟨_, done, plans, ?_, ?_, ?_⟩
  · rw [node?_put_of_ne apart.symm]
    exact held
  · exact read_of_filePlace there (node?_put_self (ne_root_of_filePlace target) _ _)
  · exact savesBeside_of_isDirectory plans
      (isDirectory_put room _ (isDirectory_of_makeDirectories made)) there apart

end TransferLedger.Volume
