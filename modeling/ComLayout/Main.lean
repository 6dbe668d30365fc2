import ComLayout.Run.Bench
import ComLayout.Run.Instant
import ComLayout.Run.Scan

/-!
# The program

The program loads the files below the working directory, runs a command on them, and writes back what
the command changed. Under the name `bench` it runs the measuring command, else the lookup command.
-/

namespace ComLayout.Program

open Run

/-- The name under which the home directory stands in the tree: one that no entry there has. -/
def homeName (taken : List String) : String :=
  ((List.range (taken.length + 1)).map fun n => "home" ++ toString n).find? (!taken.contains ·)
    |>.getD "home"

/-- Where the settings of a user lie in the home directory. -/
def userSettings : Location := [".config", "vtabscan", "config.toml"]

/-- Load a directory entry and all that is below it. Symbolic links are left out. -/
partial def loadEntry (place : Location) (tree : Tree) (entry : IO.FS.DirEntry) : IO Tree := do
  let here := place ++ [entry.fileName]
  match (← entry.path.symlinkMetadata).type with
  | .dir => (← entry.path.readDir).foldlM (loadEntry here) (tree.addDir here)
  | .file => return tree.addFile here (← IO.FS.readBinFile entry.path)
  | _ => return tree

/-- Load the settings of the user, if there are any, below a name. -/
def loadUserSettings (name : String) (tree : Tree) : IO Tree := do
  let home := (← IO.getEnv "HOME").getD ""
  match ← (IO.FS.readBinFile (String.intercalate "/" (home :: userSettings))).toBaseIO with
  | .ok bytes => return tree.addFile (name :: userSettings) bytes
  | .error _ => return tree

/-- Load what a command may read, and name the home directory in it. -/
def load : IO (Tree × String) := do
  let entries ← (← IO.currentDir).readDir
  let name := homeName (entries.toList.map (·.fileName))
  return (← loadUserSettings name (← entries.foldlM (loadEntry []) Tree.empty), name)

/-- The variables of the environment, in their order. -/
def environment : IO (List (String × String)) := do
  let text := Text.decodeLossy (← IO.FS.readBinFile "/proc/self/environ").data.toList
  return (Text.split '\x00' text).map fun entry =>
    let (name, value) := CommandLine.cutEquals entry
    (String.ofList name, String.ofList (value.getD []))

/-- The time at which the program began. -/
def now : IO Instant := do
  let process : IO.FS.DirEntry := ⟨"/proc", "self"⟩
  let time := (← process.path.metadata).modified
  return ⟨time.sec.toNat, time.nsec.toNat / 1000⟩

/-- What a command starts from. -/
def surroundings : IO Surroundings := do
  let working := (← IO.currentDir).components.filter (· != "")
  let time ← now
  let (tree, home) ← load
  return ⟨tree, working, ⟨.none, [home]⟩, ← environment, ← (← IO.getStderr).isTty,
    time.logText, time.reportText⟩

/-- Write back what a command changed. -/
def save (before after : Tree) : IO Unit :=
  after.entries.forM fun place => do
    let path := String.intercalate "/" place
    match after.contents? place with
    | none => if !before.isDir place then IO.FS.createDirAll path
    | some bytes =>
      if !(before.contents? place).any fun old => old.data == bytes.data then
        IO.FS.writeBinFile path bytes

/-- The exit code for an ending, and what is said about a fault. -/
def verdict : Ending → UInt32 × String
  | .returned => (0, "")
  | .exited code => (UInt32.ofNat code, "")
  | .settingsFault (.file fault) => (1, Action.fileWords fault ++ "\n")
  | .settingsFault _ => (1, "A setting has a value of the wrong kind\n")
  | .searchFault (.lookup error) => (1, error.message ++ "\n")
  | .searchFault (.discovery (.file fault)) => (1, Action.fileWords fault ++ "\n")
  | .searchFault (.discovery (.rule _)) => (1, "An exclusion rule is not a pattern\n")
  | .searchFault (.discovery .malformedLimit) => (1, "The size limit is not a number\n")

/-- Show what a command wrote, and keep what it changed. -/
def present (before : Tree) (outcome : Outcome) : IO UInt32 := do
  save before outcome.tree
  let (code, complaint) := verdict outcome.ending
  (← IO.getStdout).putStr outcome.output
  (← IO.getStderr).putStr (outcome.errors ++ complaint)
  return code

/-- How many lookups fit into a second if one takes the given time in nanoseconds. -/
def rateText (nanos : Nat) : String :=
  let hundredths := 100 * 1000000000 / max 1 nanos
  toString (hundredths / 100) ++ "." ++ padded 2 (hundredths % 100)

/-- Run the measuring command. Since a lookup always finds the same, one is measured. -/
def measured (around : Surroundings) (arguments : List String) : IO Outcome := do
  let start ← IO.monoNanosNow
  let outcome ← IO.lazyPure fun _ => Run.bench around "" arguments
  let stop ← IO.monoNanosNow
  match outcome.ending with
  | .returned => return Run.bench around (rateText (stop - start)) arguments
  | _ => return outcome

end ComLayout.Program

/-- Run the command of the program's name. -/
def main (arguments : List String) : IO UInt32 := do
  let around ← ComLayout.Program.surroundings
  if (← IO.appPath).fileName = some "bench" then
    ComLayout.Program.present around.tree (← ComLayout.Program.measured around arguments)
  else ComLayout.Program.present around.tree (ComLayout.Run.scan around arguments)
