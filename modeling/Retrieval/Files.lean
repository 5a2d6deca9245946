import Retrieval.Path
import Retrieval.Table
import Retrieval.Text.Blank

/-!
# Files

The files and directories that a program can see, by their places. A path is followed name by name from where it
starts, and each but its last name must lead to a directory. Text is read as strict UTF-8 with every line end
turned into a newline.
-/

set_option autoImplicit false

namespace Retrieval

/-- Why a file cannot be read or written. -/
inductive FileError where
  | notFound
  | notText
  /-- A directory where a file is needed. -/
  | isDirectory
  /-- A file where a path goes on. -/
  | notDirectory
  /-- A file where a directory is to be made. -/
  | occupied
  | nullCharacter
  | nameTooLong
  /-- The path was left out. -/
  | noPath

/-- The text of the error. -/
def FileError.message : FileError → String
  | .notFound => "No such file"
  | .notText => "The file is not a text in UTF-8"
  | .isDirectory => "A directory and no file"
  | .notDirectory => "Not a directory"
  | .occupied => "A file is in the place of the directory"
  | .nullCharacter => "embedded null byte"
  | .nameTooLong => "The name is too long"
  | .noPath => "No path is given"

/-- What is in a place. -/
inductive FileEntry where
  | file (data : ByteArray)
  | directory

/-- The files and directories by their places, which are paths that lead upwards only at their beginning. -/
abbrev Files := Table Path FileEntry

/-- A change of the files; what was changed before it failed stays changed. -/
abbrev Files.Change := ExceptT FileError (StateM Files)

namespace Files

/-- What is in a place. -/
def at? (files : Files) (place : Path) : Option FileEntry :=
  if place.isUpward then some .directory else files.get? place

/-- The place that names lead to from another place; what is there remains to be seen. -/
def follow (files : Files) (place : Path) : List String → Except FileError Path
  | [] => .ok place
  | name :: names =>
    match files.at? place with
    | none => .error .notFound
    | some (.file _) => .error .notDirectory
    | some .directory =>
      if Path.nameLimit < name.utf8ByteSize then .error .nameTooLong else follow files (place.child name) names

/-- The place that a path leads to when it is given by a text, which is neither empty nor too long and holds no null
character. -/
def followText (files : Files) (text : String) (path : Path) : Except FileError Path :=
  if text.toList.any fun c => c.toNat = 0 then .error .nullCharacter
  else if text.isEmpty then .error .notFound
  else if Path.limit < text.utf8ByteSize then .error .nameTooLong
  else files.follow path.start path.names

/-- The place that a path leads to. -/
def locate (files : Files) (path : Path) : Except FileError Path := files.followText path.text path

/-- The contents of the file in a place. -/
def contents (files : Files) (place : Path) : Except FileError ByteArray :=
  match files.at? place with
  | none => .error .notFound
  | some .directory => .error .isDirectory
  | some (.file data) => .ok data

/-- The contents of a file. -/
def read (files : Files) (path : String) : Except FileError ByteArray := do
  files.contents (← files.locate (.ofText path))

/-- Puts a file into a place. -/
def fill (place : Path) (data : ByteArray) : Change Unit := do
  match (← get).at? place with
  | some .directory => throw .isDirectory
  | _ => modify fun files => files.insert place (.file data)

/-- Writes a file in a directory that is there. -/
def write (path : String) (data : ByteArray) : Change Unit := do
  fill (← ofExcept ((← get).locate (.ofText path))) data

/-- Makes a directory in one that is there, unless it is there itself. -/
def makeDirectory (path : Path) : Change Unit := do
  let place ← ofExcept ((← get).locate path)
  match (← get).at? place with
  | some .directory => return
  | some (.file _) => throw .occupied
  | none => modify fun files => files.insert place .directory

/-- Makes the directory whose names are given, last first, with those on the way to it that are missing. -/
def makeDirectories (rooted : Bool) : List String → Change Unit
  | [] => return
  | name :: earlier =>
    tryCatch (makeDirectory ⟨rooted, (name :: earlier).reverse⟩) fun e => do
      match e with
      | .notFound => do
        makeDirectories rooted earlier
        makeDirectory ⟨rooted, (name :: earlier).reverse⟩
      | e => throw e

/-- Writes a file, with the directories on the way to it. -/
def store (path : String) (data : ByteArray) : Change Unit := do
  let place := Path.ofText path
  makeDirectories place.rooted place.parent.names.reverse
  write path data

/-- The text that bytes hold. -/
def textOf (data : ByteArray) : Except FileError String :=
  match String.fromUTF8? data with
  | some s => .ok (String.ofList (Text.unifyNewlines s.toList))
  | none => .error .notText

/-- The text of a file. -/
def readText (files : Files) (path : String) : Except FileError String := do textOf (← files.read path)

/-- The number of bytes of a file, none if it is not there. -/
def size? (files : Files) (path : String) : Option Nat := (files.read path).toOption.map ByteArray.size

end Files

/-- A number of bytes in megabytes, zero for a file that is not there. -/
def megabytes (bytes : Option Nat) : Float :=
  bytes.elim 0.0 fun n => Float.ofNat n / 1024 / 1024

end Retrieval
