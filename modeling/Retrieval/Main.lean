import Retrieval.Command.Run

/-!
# The program

The files that a command reads are taken from the directory in which the program runs, the command is run on them,
and what it leaves behind is written back and printed. Queries whose times are reported are run once more before the
command, between two readings of the clock each.
-/

set_option autoImplicit false

namespace Retrieval.Program
open Command

/-- What is at the end of a path, if it is a file that can be read or a directory. -/
def readPlace (path : Path) : IO (Option FileEntry) := do
  try
    return some (.file (← IO.FS.readBinFile path.text))
  catch e =>
    match e with
    | .inappropriateType .. => return some .directory
    | _ => return none

/-- The files and directories at the ends of paths and on the way there. -/
def readFiles (paths : List String) : IO Files :=
  (paths.flatMap fun path => (Path.ofText path).beginnings).foldlM (fun (files : Files) path => do
    match files.locate path, ← readPlace path with
    | .ok place, some entry => return files.insert place entry
    | _, _ => return files) ∅

/-- Whether an entry is what it was before. -/
def isUnchanged : Option FileEntry → FileEntry → Bool
  | some (.file old), .file data => old == data
  | some .directory, .directory => true
  | _, _ => false

/-- Makes the directories and writes the files that are not what they were before. -/
def writeChanges (before after : Files) : IO Unit :=
  (after.toList.filter fun (place, entry) => !isUnchanged (before.get? place) entry).forM fun (place, entry) =>
    match entry with
    | .directory => IO.FS.createDirAll place.text
    | .file data => IO.FS.writeBinFile place.text data

/-- The clock in seconds. -/
def seconds : IO Float := do return Float.ofNat (← IO.monoNanosNow) / 1000000000.0

/-- The readings of the clock before and after each query. -/
def timeQueries (s : Searcher Float) : List String → IO (List Float)
  | [] => return []
  | query :: queries => do
    let start ← seconds
    let _ ← IO.wait (Task.spawn fun _ => s.rankQuery query)
    let stop ← seconds
    return start :: stop :: (← timeQueries s queries)

/-- The memory in use, in megabytes; zero where the system does not tell. -/
def memoryInUse : IO Float := do
  try
    let text ← IO.FS.readFile "/proc/self/statm"
    let pages := (Text.words text)[1]?.bind fun word => (Numeral.readInteger word).toOption
    return megabytes (pages.map fun n => 4096 * n.toNat)
  catch _ => return 0.0

/-- The surroundings of a request on files; there is no network to download from. -/
def surroundings (request : Request) (files : Files) : IO Surroundings := do
  let clock ← match request.timed files with
    | some (s, queries) => timeQueries s queries
    | none => pure []
  return { downloadError := some "no network", clock, memory := ← memoryInUse }

/-- Shows how a run ends, and gives its status. -/
def finish : Ending → IO UInt32
  | .status n => return UInt32.ofNat n
  | .exit e => do
    if e = .help then IO.println usageText else IO.eprintln usageText
    return UInt32.ofNat e.status
  | .failed e => do
    IO.eprintln e.message
    return 1

end Retrieval.Program

/-- Runs the command of a command line. -/
def main (args : List String) : IO UInt32 := do
  let (files, around) ← match Retrieval.Command.parse args with
    | .ok request => do
      let files ← Retrieval.Program.readFiles request.paths
      pure (files, ← Retrieval.Program.surroundings request files)
    | .error _ => pure (∅, {})
  let (ending, world) := Retrieval.Command.run around files args
  Retrieval.Program.writeChanges files world.files
  IO.print world.printed
  world.notices.forM fun n => IO.eprintln (n.level.name ++ " - " ++ n.text)
  Retrieval.Program.finish ending
