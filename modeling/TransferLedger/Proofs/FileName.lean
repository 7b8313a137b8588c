import TransferLedger.Proofs.Creation

/-! Plan files that lie beside each other.

The name of a plan file is a job id of fixed width, a separator, a number of at least five
digits and an ending.  So the name says which part of which job the plan is of, and a plan
that is made does not touch the plan of another part in its directory.
-/

namespace TransferLedger

namespace JobId

variable {left right : JobId}

theorem length_toText (id : JobId) : id.toText.toList.length = 36 := by
  rw [toText, String.toList_ofList]
  apply length_hyphenate
  rw [length_encode, toBytes, Vector.length_toList]

theorem toText_inj : left.toText = right.toText ↔ left = right := by
  constructor
  · intro same
    have read := ofText?_toText left
    rw [same, ofText?_toText right] at read
    exact (Option.some.inj read).symm
  · rintro rfl
    rfl

end JobId

namespace PartNumber

variable {left right : PartNumber}

/-- Digits beyond the padding tell numbers apart as well as those in it. -/
theorem toText_inj : left.toText = right.toText ↔ left = right := by
  constructor
  · intro same
    have digits := congrArg String.toList same
    rw [toText, toText, String.toList_ofList, String.toList_ofList] at digits
    have numbers := congrArg Text.Decimal.value digits
    rw [Text.Decimal.value_padded, Text.Decimal.value_padded] at numbers
    obtain ⟨left⟩ := left
    obtain ⟨right⟩ := right
    exact congrArg PartNumber.mk (UInt32.toNat_inj.1 numbers)
  · rintro rfl
    rfl

end PartNumber

/-! ## Files of one directory -/

namespace Volume

open TransferLedger.Volume.Path (Step Ending)

variable {volume : Volume} {directory : Path} {name other : String} {place next : Place}

/-- The path of what has a name in a directory. -/
def Path.inside (directory : Path) (name : String) : Path where
  parts := directory.parts ++ [name]

theorem Path.steps_inside (proper : Step.ofPart? name = some (.into name)) :
    (directory.inside name).steps = directory.steps ++ [.into name] := by
  simp only [inside, steps, List.filterMap_append, List.filterMap_cons, proper, List.filterMap_nil]

theorem Path.ending_inside (proper : Step.ofPart? name = some (.into name)) :
    (directory.inside name).ending = .plain := by
  have filled : name ≠ "" := by
    rintro rfl
    cases proper
  have undotted : name ≠ "." := by
    rintro rfl
    cases proper
  simp [inside, ending, Ending.ofParts, filled, undotted]

theorem follow_inside (proper : Step.ofPart? name = some (.into name)) :
    volume.follow (directory.inside name).steps =
      volume.follow directory.steps >>= fun parent => volume.step parent (.into name) := by
  rw [follow, Path.steps_inside proper, List.foldlM_append]
  simp only [List.foldlM_cons, List.foldlM_nil, bind_pure]
  rfl

theorem step_into_eq_ok (taken : volume.step place (.into name) = .ok next) :
    next = place.child name := by
  rw [Volume.step, check_bind_eq_ok_iff] at taken
  have entered := taken.2
  split at entered
  · exact (Except.ok.inj entered).symm
  · cases entered

/-- A file that is put in a directory changes nothing under another name of the directory. -/
theorem read_put_beside (found : volume.filePlace (directory.inside name) = .ok place)
    (proper : Step.ofPart? name = some (.into name))
    (sibling : Step.ofPart? other = some (.into other)) (different : other ≠ name) (file : File) :
    (volume.put place (.file file)).read (directory.inside other) =
      volume.read (directory.inside other) := by
  obtain ⟨_, resolved, free⟩ := filePlace_eq_ok_iff.1 found
  rw [resolve, check_bind_eq_ok_iff, follow_inside proper, bind_eq_ok_iff] at resolved
  obtain ⟨_, parent, followed, entered⟩ := resolved
  have here : place = parent.child name := step_into_eq_ok entered
  have way : (volume.put place (.file file)).follow directory.steps = .ok parent :=
    foldlM_step_put free _ followed
  have apart : parent ≠ place := fun same => free (same ▸ node?_of_step entered)
  have taken : (volume.put place (.file file)).step parent (.into other) =
      volume.step parent (.into other) := by
    simp only [Volume.step, checkDirectory, node?_put_of_ne apart]
  have same : (volume.put place (.file file)).follow (directory.inside other).steps =
      volume.follow (directory.inside other).steps := by
    rw [follow_inside sibling, follow_inside sibling, way, followed, ok_bind, ok_bind, taken]
  have held (target : Place) (reached : volume.follow (directory.inside other).steps = .ok target) :
      (volume.put place (.file file)).node? target = volume.node? target := by
    rw [follow_inside sibling, followed, ok_bind] at reached
    apply node?_put_of_ne
    rw [step_into_eq_ok reached, here]
    intro named
    exact different (List.cons.inj (Place.mk.inj named).2).1
  simp only [read, lookup, resolve, same, Path.ending_inside sibling]
  cases (directory.inside other).check with
  | error fault => rfl
  | ok _ =>
      cases reached : volume.follow (directory.inside other).steps with
      | error fault => rfl
      | ok target => simp only [ok_bind, ne_eq, not_true, if_false, held target reached]

end Volume

/-! ## Plan files -/

namespace Plan

variable {job other : JobId} {part next : PartNumber}

theorem Layout.fileName_eq_iff :
    fileName job part = fileName other next ↔ job = other ∧ part = next := by
  constructor
  · intro same
    have chars := congrArg String.toList same
    simp only [fileName, String.toList_append, List.append_assoc] at chars
    obtain ⟨jobs, rest⟩ := List.append_inj chars (by rw [JobId.length_toText, JobId.length_toText])
    have parts := List.append_cancel_right (List.append_cancel_left rest)
    exact ⟨JobId.toText_inj.1 (String.toList_inj.1 jobs),
      PartNumber.toText_inj.1 (String.toList_inj.1 parts)⟩
  · rintro ⟨rfl, rfl⟩
    rfl

/-- A plan's file name is no way up and no way back to the directory itself. -/
theorem Layout.step_fileName (job : JobId) (part : PartNumber) :
    Volume.Path.Step.ofPart? (fileName job part) = some (.into (fileName job part)) := by
  have long : 36 ≤ (fileName job part).toList.length := by
    simp only [fileName, String.toList_append, List.length_append, JobId.length_toText]
    omega
  have differs {short : String} (few : short.toList.length < 36) : fileName job part ≠ short := by
    rintro same
    rw [same] at long
    omega
  unfold Volume.Path.Step.ofPart?
  split
  · rename_i same
    exact absurd same (differs (by decide))
  · rename_i same
    exact absurd same (differs (by decide))
  · rename_i same
    exact absurd same (differs (by decide))
  · rfl

/-- Two parts have plan files of the same name only if they are the same part of the same job.
So a plan that is made, over whatever its file held, leaves the plan of every other part in the
directory as it was. -/
theorem fileNames_apart (job other : JobId) (part next : PartNumber) :
    (Layout.fileName job part = Layout.fileName other next → job = other ∧ part = next) ∧
    (¬ (job = other ∧ part = next) →
      ∀ (volume : Volume) (directory : Volume.Path) (order : Order),
        (Handle.create volume (directory.inside (Layout.fileName job part)) order).2.read
            (directory.inside (Layout.fileName other next)) =
          volume.read (directory.inside (Layout.fileName other next))) := by
  refine ⟨Layout.fileName_eq_iff.1, fun distinct volume directory order => ?_⟩
  have different : Layout.fileName other next ≠ Layout.fileName job part := by
    intro same
    obtain ⟨rfl, rfl⟩ := Layout.fileName_eq_iff.1 same
    exact distinct ⟨rfl, rfl⟩
  have inPlace := congrArg Prod.snd
    (InPlace.create_matches order volume (directory.inside (Layout.fileName job part)))
  rw [← inPlace]
  rcases InPlace.create_cases order volume (directory.inside (Layout.fileName job part)) with
    ⟨_, _, refused⟩ | ⟨_, _, _, misplaced⟩ | ⟨place, _, found, made⟩
  · rw [refused]
  · rw [misplaced]
  · rw [made]
    exact Volume.read_put_beside found (Layout.step_fileName job part)
      (Layout.step_fileName other next) different _

/-- Parts 10000 and 100000 of one job: the number of the one begins with that of the other. -/
theorem fileNames_apart_wideNumber :
    let directory : Volume.Path := { parts := ["plans"] }
    let part : PartNumber := { value := 10000 }
    let wide : PartNumber := { value := 100000 }
    let volume : Volume := {
      nodes := [({ depth := 1, names := ["plans"] }, .directory),
        ({ depth := 2, names := ["00000000-0000-0000-0000-000000000000--10000.steV0", "plans"] },
          .file { bytes := ⟨#[1, 2, 3]⟩ })] }
    Layout.fileName .zero wide ≠ Layout.fileName .zero part ∧
      (Handle.create volume (directory.inside (Layout.fileName .zero wide)) {}).2.read
        (directory.inside (Layout.fileName .zero part)) = .ok ⟨#[1, 2, 3]⟩ := by
  intro directory part wide volume
  have apart := fileNames_apart .zero .zero wide part
  refine ⟨fun same => absurd (apart.1 same).2 (by decide), ?_⟩
  have name : Layout.fileName .zero part = "00000000-0000-0000-0000-000000000000--10000.steV0" := by
    decide
  rw [apart.2 (fun same => absurd same.2 (by decide)) volume directory {}, name]
  rfl

end Plan

end TransferLedger
