/-! Written paths.

The parts between the slashes of a path are steps: down into a name, or up to
the directory above for two dots.  Empty parts and single dots lead nowhere, but
they count in the length of the path.  A step up is not cancelled against the
name before it, because that name has to be there and has to be a directory.
-/

namespace TransferLedger.Volume

namespace Path

inductive Step where
  | up
  | into (name : String)
  deriving DecidableEq, Repr

def Step.ofPart? : String → Option Step
  | "" | "." => none
  | ".." => some .up
  | name => some (.into name)

/-- What follows the last step.  A slash or a dot there asks for a directory. -/
inductive Ending where
  | plain
  | slash
  | dot
  deriving DecidableEq, Repr

def Ending.ofParts (parts : List String) : Ending :=
  if (parts.filter fun part => part ≠ "").getLast? = some "." then .dot
  else if parts.getLast? = some "" then .slash
  else .plain

end Path

structure Path where
  parts : List String
  deriving DecidableEq, Repr

namespace Path

def ofText (text : String) : Path where
  parts := text.splitOn "/"

def toText (path : Path) : String :=
  "/".intercalate path.parts

def steps (path : Path) : List Step :=
  path.parts.filterMap Step.ofPart?

def ending (path : Path) : Ending :=
  .ofParts path.parts

def trimmed (path : Path) : Path where
  parts := (path.parts.reverse.dropWhile fun part => (Step.ofPart? part).isNone).reverse

/-- The path without its last step and what follows it. -/
def parent (path : Path) : Path :=
  trimmed { parts := path.trimmed.parts.dropLast }

end Path

end TransferLedger.Volume
