import ComLayout.CommandLine.Given
import ComLayout.Settings.Fault
import ComLayout.Toml.Document
import ComLayout.Value.Layer

/-!
# The layers of the settings

Settings come from a file, from the environment and from the command line, and each of these layers
lies over the ones before. The file is the one that the command line names, else the first that exists
of two in the working directory and one in the home directory.
-/

namespace ComLayout

open CommandLine

namespace Layers

/-- The files that are looked for if the command line names none. -/
def usualFiles (home : Path) : List Path :=
  [Path.ofString "vtabscan.toml", Path.ofString ".vtabscan.toml",
    home.append [".config", "vtabscan", "config.toml"]]

/-- The file with settings, if there is one. -/
def file? (tree : Tree) (home : Path) (given : Given) : Option Path :=
  match given.last? "config" with
  | some (.text spelling) =>
    if spelling.isEmpty then usual else some (Path.ofString spelling)
  | _ => usual
where
  /-- The first of the usual files that exists. -/
  usual : Option Path := (usualFiles home).find? fun path => tree.holds path

/-- The settings in a file. -/
def ofFile (tree : Tree) (path : Path) : Except SettingsFault Table := do
  let bytes ← (tree.read path).mapError .file
  let text ← (Text.decodeStrict bytes.data.toList).mapError .undecodable
  (Toml.parse text).mapError .unreadable

/-- The settings in the file, none if there is no file. -/
def fromFile (tree : Tree) (home : Path) (given : Given) : Except SettingsFault Table :=
  match file? tree home given with
  | some path => ofFile tree path
  | none => .ok []

/-- An entry, if there is a value for it. -/
def entry (key : String) (value : Option Value) : Table := (value.map (key, ·)).toList

/-- A value that a switch sets. -/
def switched (given : Given) (flag : String) (value : Bool) : Option Value :=
  if given.has flag then some (.bool value) else none

/-- A section, unless it is empty. -/
def section_ (name : String) (entries : List Table) : Table :=
  if entries.flatten.isEmpty then [] else [(name, .table entries.flatten)]

/-- The formats that the command line names. -/
def formats (given : Given) : Except SettingsFault (Option Value) :=
  match given.last? "output" with
  | none => .ok none
  | some (.text names) => .ok (some (.list ((Value.itemsOf names.toList).map .text)))
  | some _ => .error .noFormats

/-- The patterns that the command line excludes. -/
def excluded (given : Given) : Option Value :=
  match given.all "exclude" with
  | [] => none
  | patterns => some (.list patterns)

/-- The settings on the command line. The named file and the dry run are always among them. -/
def fromCommandLine (given : Given) : Except SettingsFault Table := do
  let formats ← formats given
  .ok ([("config_path", (given.last? "config").getD .null),
      ("dry_run", .bool (given.has "dry-run"))] ++
    entry "path" ((given.operand? 1).map .text) ++
    section_ "lookup" [entry "interface" ((given.operand? 0).map .text),
      entry "recurse" (switched given "recurse" true)] ++
    section_ "files" [entry "exclude" (excluded given),
      entry "max_file_bytes" (given.last? "max-file-bytes")] ++
    section_ "output" [entry "formats" formats, entry "out_dir" (given.last? "out-dir"),
      entry "out_prefix" (given.last? "out-prefix"),
      entry "overwrite" (switched given "overwrite" true)] ++
    section_ "logging" [entry "progress" (switched given "no-progress" false),
      entry "quiet" (switched given "quiet" true), entry "verbose" (switched given "verbose" true),
      entry "log_file" (given.last? "log-file"),
      entry "status_handle" (given.last? "status-handle")])

/-- All layers, laid over one another. -/
def all (tree : Tree) (home : Path) (environment : List (String × String)) (given : Given) :
    Except SettingsFault Table := do
  let file ← fromFile tree home given
  let surrounding ← (Environment.layer environment).mapError .environment
  let commandLine ← fromCommandLine given
  .ok (Table.over (Table.over file surrounding) commandLine)

end Layers

end ComLayout
