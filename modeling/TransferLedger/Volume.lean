import TransferLedger.Volume.File
import TransferLedger.Volume.Path

/-! Files and directories.

A place is known by the names on the way down to it from the root, which is
always there.  An operation takes a path, follows its steps to a place, and fails
as a file system would: on a path that cannot be asked for, on a way that is
missing or leads through a file, and on a place that holds the wrong kind of
thing.  What was written at a path is read back from it.
-/

namespace TransferLedger

namespace Volume

/-- A place under the root.  The names are given innermost first, and the depth
tells places apart before their names have to be compared. -/
structure Place where
  depth : Nat := 0
  names : List String := []
  deriving DecidableEq, Repr

namespace Place

def root : Place := {}

def child (place : Place) (name : String) : Place where
  depth := place.depth + 1
  names := name :: place.names

/-- The place one name up.  Nothing is above the root but the root. -/
def above (place : Place) : Place where
  depth := place.depth - 1
  names := place.names.tail

end Place

inductive Node where
  | file (content : File)
  | directory

inductive Fault where
  | missing
  | exists
  | notDirectory
  | isDirectory
  /-- A name or a whole path is too long. -/
  | nameTooLong
  | nulInName
  /-- The file's bytes are not UTF-8. -/
  | notText
  /-- Any other failure, as the system describes it. -/
  | refused (description : String) (code : Nat)
  deriving DecidableEq, Repr

def Fault.message : Fault → String
  | .missing => "No such file or directory (os error 2)"
  | .exists => "File exists (os error 17)"
  | .notDirectory => "Not a directory (os error 20)"
  | .isDirectory => "Is a directory (os error 21)"
  | .nameTooLong => "File name too long (os error 36)"
  | .nulInName => "file name contained an unexpected NUL byte"
  | .notText => "stream did not contain valid UTF-8"
  | .refused description code => description ++ " (os error " ++ toString code ++ ")"

def nameLimit : Nat := 255

def pathLimit : Nat := 4095

/-- Whether a path can be asked for at all, whatever there is. -/
def Path.check (path : Path) : Except Fault Unit :=
  if path.parts.any fun part => part.toList.contains '\x00' then .error .nulInName
  else if path.toText.utf8ByteSize ≤ pathLimit then .ok ()
  else .error .nameTooLong

end Volume

structure Volume where
  nodes : List (Volume.Place × Volume.Node) := []

namespace Volume

instance : Inhabited Volume := ⟨{}⟩

def node? (volume : Volume) (place : Place) : Option Node :=
  if place = .root then some .directory
  else (volume.nodes.find? fun entry => entry.1 == place).map Prod.snd

/-- Sets the node of a place, whatever stood there. -/
def put (volume : Volume) (place : Place) (node : Node) : Volume where
  nodes := (place, node) :: volume.nodes.filter fun entry => entry.1 != place

/-! ## Following paths -/

def checkDirectory (volume : Volume) (place : Place) : Except Fault Unit :=
  match volume.node? place with
  | some .directory => .ok ()
  | some (.file _) => .error .notDirectory
  | none => .error .missing

/-- The place that a step leads to from a directory. -/
def step (volume : Volume) (place : Place) (step : Path.Step) : Except Fault Place := do
  volume.checkDirectory place
  match step with
  | .up => .ok place.above
  | .into name =>
      if name.utf8ByteSize ≤ nameLimit then .ok (place.child name) else .error .nameTooLong

/-- The place that steps lead to from the root.  There may be nothing there. -/
def follow (volume : Volume) (steps : List Path.Step) : Except Fault Place :=
  steps.foldlM volume.step .root

def resolve (volume : Volume) (path : Path) : Except Fault Place := do
  path.check
  volume.follow path.steps

def lookup (volume : Volume) (path : Path) : Except Fault (Place × Node) := do
  let place ← volume.resolve path
  if path.ending ≠ .plain then volume.checkDirectory place
  match volume.node? place with
  | some node => .ok (place, node)
  | none => .error .missing

/-- The place for a file, which need not be there yet.  A path that asks for a
directory gives none, also where there is no directory so far. -/
def filePlace (volume : Volume) (path : Path) : Except Fault Place := do
  path.check
  match path.ending with
  | .plain =>
      let place ← volume.follow path.steps
      match volume.node? place with
      | some .directory => .error .isDirectory
      | _ => .ok place
  | .slash =>
      volume.checkDirectory (← volume.follow path.steps.dropLast)
      .error .isDirectory
  | .dot =>
      volume.checkDirectory (← volume.follow path.steps)
      .error .isDirectory

def contains (volume : Volume) (path : Path) : Bool :=
  (volume.lookup path).isOk

def isDirectory (volume : Volume) (path : Path) : Bool :=
  match volume.lookup path with
  | .ok (_, .directory) => true
  | _ => false

/-! ## Files -/

def read (volume : Volume) (path : Path) : Except Fault ByteArray := do
  match ← volume.lookup path with
  | (_, .file file) => .ok file.bytes
  | (_, .directory) => .error .isDirectory

def write (volume : Volume) (path : Path) (bytes : ByteArray) : Except Fault Volume := do
  let place ← volume.filePlace path
  .ok (volume.put place (.file { bytes }))

def overwrite (volume : Volume) (path : Path) (offset : Nat) (patch : ByteArray) :
    Except Fault Volume := do
  match ← volume.lookup path with
  | (place, .file file) => .ok (volume.put place (.file (file.overwrite offset patch)))
  | (_, .directory) => .error .isDirectory

/-- What is in the file at a place, nothing where there is none. -/
def fileAt (volume : Volume) (place : Place) : File :=
  match volume.node? place with
  | some (.file file) => file
  | _ => { bytes := .empty }

/-! ## Directories -/

def makeDirectory (volume : Volume) (path : Path) : Except Fault Volume := do
  let place ← volume.resolve path
  if path.ending = .dot then volume.checkDirectory place
  match volume.node? place with
  | some _ => .error .exists
  | none => .ok (volume.put place .directory)

def ensureDirectory (volume : Volume) (path : Path) : Except Fault Unit × Volume :=
  match volume.makeDirectory path with
  | .ok made => (.ok (), made)
  | .error fault => (if volume.isDirectory path then .ok () else .error fault, volume)

def makeWay (volume : Volume) (place : Place) : List Path.Step → Except Fault Unit × Volume
  | [] => (.ok (), volume)
  | step :: rest =>
      match volume.step place step with
      | .error fault => (.error fault, volume)
      | .ok next =>
          match volume.node? next with
          | some .directory => makeWay volume next rest
          | some (.file _) => (.error .exists, volume)
          | none => makeWay (volume.put next .directory) next rest

/-- Makes a directory and, if its way is missing, the directories on it.  Those
that were made stay when a later one fails. -/
def makeDirectories (volume : Volume) (path : Path) : Except Fault Unit × Volume :=
  match volume.ensureDirectory path with
  | (.error .missing, _) =>
      match volume.makeWay .root path.steps.dropLast with
      | (.ok (), prepared) => prepared.ensureDirectory path
      | (.error fault, prepared) => (.error fault, prepared)
  | (result, prepared) => (result, prepared)

def writeNested (volume : Volume) (path : Path) (bytes : ByteArray) :
    Except Fault Unit × Volume :=
  match volume.makeDirectories path.parent with
  | (.error fault, prepared) => (.error fault, prepared)
  | (.ok (), prepared) =>
      match prepared.write path bytes with
      | .error fault => (.error fault, prepared)
      | .ok written => (.ok (), written)

/-! ## What a write leaves to be read -/

theorem node?_put_self {place : Place} (named : place ≠ .root) (volume : Volume) (node : Node) :
    (volume.put place node).node? place = some node := by
  simp [node?, put, named]

theorem node?_put_of_ne {place other : Place} (different : other ≠ place) (volume : Volume)
    (node : Node) : (volume.put place node).node? other = volume.node? other := by
  by_cases root : other = .root
  · simp [node?, root]
  · have away : (place == other) = false := by
      simpa using fun same : place = other => different same.symm
    have kept : (fun entry : Place × Node => decide ((entry.1 != place) = true ∧
        (entry.1 == other) = true)) = fun entry => entry.1 == other := by
      funext entry
      by_cases here : entry.1 = other <;> simp [here, different]
    simp only [node?, put, root, if_false, List.find?_cons, away, List.find?_filter, kept]

theorem checkDirectory_eq_ok_iff {volume : Volume} {place : Place} :
    volume.checkDirectory place = .ok () ↔ volume.node? place = some .directory := by
  unfold checkDirectory
  split <;> simp_all

theorem node?_of_step {volume : Volume} {place next : Place} {step : Path.Step}
    (taken : volume.step place step = .ok next) : volume.node? place = some .directory := by
  cases checked : volume.checkDirectory place with
  | error fault => simp [Volume.step, checked, bind, Except.bind] at taken
  | ok _ => exact checkDirectory_eq_ok_iff.1 checked

/-- A node that is put where no directory was is on nobody's way. -/
theorem step_put {volume : Volume} {place start next : Place} {step : Path.Step}
    (free : volume.node? place ≠ some .directory) (node : Node)
    (taken : volume.step start step = .ok next) :
    (volume.put place node).step start step = .ok next := by
  have directory := node?_of_step taken
  have different : start ≠ place := fun same => free (same ▸ directory)
  simpa only [Volume.step, checkDirectory, node?_put_of_ne different] using taken

theorem foldlM_step_put {volume : Volume} {place start target : Place} {steps : List Path.Step}
    (free : volume.node? place ≠ some .directory) (node : Node)
    (followed : steps.foldlM volume.step start = .ok target) :
    steps.foldlM (volume.put place node).step start = .ok target := by
  induction steps generalizing start with
  | nil => exact followed
  | cons first rest ih =>
      rw [List.foldlM_cons] at followed ⊢
      cases taken : volume.step start first with
      | error fault => simp [taken, bind, Except.bind] at followed
      | ok next =>
          rw [step_put free node taken]
          rw [taken] at followed
          exact ih followed

theorem filePlace_eq_ok_iff {volume : Volume} {path : Path} {place : Place} :
    volume.filePlace path = .ok place ↔
      path.ending = .plain ∧ volume.resolve path = .ok place ∧
        volume.node? place ≠ some .directory := by
  cases admitted : path.check with
  | error fault => simp [filePlace, resolve, admitted, bind, Except.bind]
  | ok _ =>
  cases ending : path.ending with
  | plain =>
      cases followed : volume.follow path.steps with
      | error fault => simp [filePlace, resolve, admitted, ending, followed, bind, Except.bind]
      | ok there =>
          simp only [filePlace, resolve, admitted, ending, followed, bind, Except.bind, true_and,
            Except.ok.injEq]
          split
          · rename_i directory
            simpa using fun same : there = place => same ▸ directory
          · rename_i free
            exact ⟨fun same => by cases same; exact ⟨rfl, free⟩, fun ⟨same, _⟩ => same ▸ rfl⟩
  | slash =>
      cases followed : volume.follow path.steps.dropLast with
      | error fault => simp [filePlace, admitted, ending, followed, bind, Except.bind]
      | ok there =>
          cases checked : volume.checkDirectory there <;>
            simp [filePlace, admitted, ending, followed, checked, bind, Except.bind]
  | dot =>
      cases followed : volume.follow path.steps with
      | error fault => simp [filePlace, admitted, ending, followed, bind, Except.bind]
      | ok there =>
          cases checked : volume.checkDirectory there <;>
            simp [filePlace, admitted, ending, followed, checked, bind, Except.bind]

theorem resolve_put {volume : Volume} {path : Path} {place target : Place}
    (free : volume.node? place ≠ some .directory) (node : Node)
    (resolved : volume.resolve path = .ok target) :
    (volume.put place node).resolve path = .ok target := by
  cases admitted : path.check with
  | error fault => simp [resolve, admitted, bind, Except.bind] at resolved
  | ok _ =>
      simp only [resolve, admitted, bind, Except.bind] at resolved ⊢
      exact foldlM_step_put free node resolved

/-- A file that was put at the place of a path is what the path leads to. -/
theorem lookup_put {volume : Volume} {path : Path} {place : Place}
    (found : volume.filePlace path = .ok place) (file : File) :
    (volume.put place (.file file)).lookup path = .ok (place, .file file) := by
  obtain ⟨plain, resolved, free⟩ := filePlace_eq_ok_iff.1 found
  have named : place ≠ .root := fun root => free (by simp [root, node?])
  simp [lookup, resolve_put free _ resolved, plain, node?_put_self named, bind, Except.bind]

theorem read_write {volume written : Volume} {path : Path} {bytes : ByteArray}
    (done : volume.write path bytes = .ok written) : written.read path = .ok bytes := by
  cases found : volume.filePlace path with
  | error fault => simp [write, found, bind, Except.bind] at done
  | ok place =>
      simp only [write, found, bind, Except.bind, Except.ok.injEq] at done
      subst done
      simp [read, lookup_put found, bind, Except.bind]

end Volume

end TransferLedger
