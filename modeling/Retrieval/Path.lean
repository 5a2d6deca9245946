/-!
# Paths

A path starts at the root or in the directory in which a program runs, and goes on from name to name. Empty names
are left out, and so are those that stand for the directory they are in; a name that leads to the directory above
stays, for it depends on the files where it leads.
-/

set_option autoImplicit false

namespace Retrieval

/-- A way through directories, from the root or from where the program runs. -/
structure Path where
  rooted : Bool
  names : List String
  deriving DecidableEq

namespace Path

/-- The name of the directory above. -/
def above : String := ".."

/-- The name of the directory where one is. -/
def here : String := "."

/-- The path that a text spells out, with every name that is not empty. -/
def ofSteps (text : String) : Path where
  rooted := text.toList.head? = some '/'
  names := ((text.toList.splitOn '/').map String.ofList).filter (· ≠ "")

/-- The path that a text names. -/
def ofText (text : String) : Path := ⟨(ofSteps text).rooted, (ofSteps text).names.filter (· ≠ here)⟩

/-- The plain text of a path. -/
def text (p : Path) : String :=
  if p.rooted then "/" ++ String.intercalate "/" p.names
  else if p.names.isEmpty then here
  else String.intercalate "/" p.names

/-- Where a path starts. -/
def start (p : Path) : Path := ⟨p.rooted, []⟩

/-- The path without its last name. -/
def parent (p : Path) : Path := ⟨p.rooted, p.names.dropLast⟩

/-- The paths on the way to a path, with itself. -/
def beginnings (p : Path) : List Path :=
  (List.range p.names.length).map fun n => ⟨p.rooted, p.names.take (n + 1)⟩

/-- Whether a path leads only upwards from its start; such directories are always there. -/
def isUpward (p : Path) : Bool := p.names.all (· = above)

/-- One name further from the place of a directory: that place itself, the place of the directory above, or of what
has that name; there is nothing above the root. -/
def child (p : Path) (name : String) : Path :=
  if name = here then p
  else if name ≠ above then ⟨p.rooted, p.names ++ [name]⟩
  else if !p.isUpward then p.parent
  else if p.rooted then p
  else ⟨false, p.names ++ [above]⟩

/-- The greatest number of bytes of a name. -/
def nameLimit : Nat := 255

/-- The greatest number of bytes of a path. -/
def limit : Nat := 4095

end Path
end Retrieval
