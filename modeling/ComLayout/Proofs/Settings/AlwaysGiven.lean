import ComLayout.CommandLine.Commands
import ComLayout.Proofs.CommandLine.FlagValues
import ComLayout.Proofs.Settings.EnvironmentLayer
import ComLayout.Proofs.Settings.Places
import Mathlib

/-!
# What the command line always gives

The dry run and the named file are on every command line, be it as false and as null. So no layer below
has a say in them: the dry run is on exactly if its flag was given, a variable or a file that turns it on
changes nothing, and a file that was found without being named is not told.
-/

namespace ComLayout

open CommandLine

/-- No value of a flag is a table. -/
theorem isTable_of_isFlagValue {value : Value} (suits : isFlagValue value = true) :
    value.isTable = false := by
  cases value <;> simp_all [isFlagValue, Value.isTable]

namespace Layers

variable {tree other : Tree} {home : Path} {environment : List (String × String)} {given : Given}

/-- Of all layers, those below the command line come together first. -/
theorem all_of_ok {file surrounding : Table} (read : fromFile tree home given = .ok file)
    (layered : Environment.layer environment = .ok surrounding) :
    all tree home environment given =
      (fromCommandLine given).map fun commandLine => Table.over (Table.over file surrounding) commandLine := by
  rw [all, read, layered]
  cases fromCommandLine given <;> rfl

/-- The named file and the dry run of a command line replace whatever lies below. -/
theorem lookup_over_top {texts : List String} {commandLine : Table}
    (accepted : scan.read texts = .ok given) (read : fromCommandLine given = .ok commandLine)
    (lower : Table) :
    (Table.over lower commandLine).lookup "config_path" = some ((given.last? "config").getD .null) ∧
      (Table.over lower commandLine).lookup "dry_run" = some (.bool (given.has "dry-run")) := by
  obtain rfl := fromCommandLine_eq_ok read
  obtain ⟨configPath, dryRun⟩ := lookup_holding_top ((given.last? "config").getD .null)
    (.bool (given.has "dry-run")) fun s => s.source.value? given
  have distinct := distinct_holding ((given.last? "config").getD .null)
    (.bool (given.has "dry-run")) fun s => s.source.value? given
  have plain : ((given.last? "config").getD .null).isTable = false := by
    cases last : given.last? "config" with
    | none => rfl
    | some value => exact isTable_of_isFlagValue (isFlagValue_last? accepted last)
  rw [Table.lookup_over _ distinct, Table.lookup_over _ distinct, configPath, dryRun]
  exact ⟨Value.overlay_of_upper _ plain, Value.overlay_of_upper _ rfl⟩

/-- Tables that differ at most in what every command line gives are the same under one. -/
theorem lookup_over_of_same_below {texts : List String} {lower otherLower commandLine : Table}
    (accepted : scan.read texts = .ok given) (read : fromCommandLine given = .ok commandLine)
    (same : ∀ key, key ≠ "config_path" → key ≠ "dry_run" → otherLower.lookup key = lower.lookup key)
    (key : String) :
    (Table.over otherLower commandLine).lookup key = (Table.over lower commandLine).lookup key := by
  obtain ⟨configPath, dryRun⟩ := lookup_over_top accepted read lower
  obtain ⟨otherPath, otherRun⟩ := lookup_over_top accepted read otherLower
  by_cases named : key = "config_path"
  · rw [named, otherPath, configPath]
  · by_cases dry : key = "dry_run"
    · rw [dry, otherRun, dryRun]
    · exact Table.lookup_over_congr (same key named dry) commandLine

end Layers

namespace Settings

variable {tree other : Tree} {home : Path} {environment : List (String × String)} {given : Given}
  {texts : List String}

/-- Layers below the command line that differ at most in what every command line gives lead to the same
settings, or to the same fault. -/
theorem resolve_of_same_below {otherEnvironment : List (String × String)}
    {file surrounding otherFile otherSurrounding : Table} (accepted : scan.read texts = .ok given)
    (read : Layers.fromFile tree home given = .ok file)
    (layered : Environment.layer environment = .ok surrounding)
    (otherRead : Layers.fromFile other home given = .ok otherFile)
    (otherLayered : Environment.layer otherEnvironment = .ok otherSurrounding)
    (same : ∀ key, key ≠ "config_path" → key ≠ "dry_run" →
      (Table.over otherFile otherSurrounding).lookup key = (Table.over file surrounding).lookup key) :
    resolve other home otherEnvironment given = resolve tree home environment given := by
  rw [resolve, resolve, Layers.all_of_ok read layered, Layers.all_of_ok otherRead otherLayered]
  cases onCommandLine : Layers.fromCommandLine given with
  | error fault => rfl
  | ok commandLine =>
    have cut := ofTable_congr (Layers.lookup_over_of_same_below accepted onCommandLine same)
    simp only [Except.map, bind, Except.bind, cut]

/-- A file may name another file or turn the dry run on: the settings, or the fault, are the same as
without. -/
theorem resolve_ignores_file {file otherFile : Table} (accepted : scan.read texts = .ok given)
    (read : Layers.fromFile tree home given = .ok file)
    (otherRead : Layers.fromFile other home given = .ok otherFile)
    (same : ∀ key, key ≠ "config_path" → key ≠ "dry_run" → otherFile.lookup key = file.lookup key) :
    resolve other home environment given = resolve tree home environment given := by
  cases layered : Environment.layer environment with
  | error fault => simp [resolve, Layers.all, read, otherRead, layered, bind, Except.bind]
  | ok surrounding =>
    refine resolve_of_same_below accepted read layered otherRead layered fun key named dry => ?_
    exact Table.lookup_over_congr (same key named dry) surrounding

/-- A variable may do the same: the settings, or the fault, are the same as without. -/
theorem resolve_ignores_variable {key name raw : String} {before after : List (String × String)}
    (accepted : scan.read texts = .ok given) (always : key = "config_path" ∨ key = "dry_run")
    (named : Environment.keysOf? name.toList = some [key])
    (elsewhere : ∀ entry ∈ before ++ after, Environment.Elsewhere [key] entry) :
    resolve tree home (before ++ (name, raw) :: after) given =
      resolve tree home (before ++ after) given := by
  have changed : Environment.PutInto (Value.ofText raw) [key] (Environment.layer (before ++ after))
      (Environment.layer (before ++ (name, raw) :: after)) :=
    Environment.putInto_layer named (by simp) elsewhere
  cases read : Layers.fromFile tree home given with
  | error fault => simp [resolve, Layers.all, read, bind, Except.bind]
  | ok file =>
    rcases changed.outcomes with ⟨fault, without, including⟩ | ⟨surrounding, grown, without, including, put⟩
    · simp [resolve, Layers.all, read, without, including]
    · refine resolve_of_same_below accepted read without read including fun other apart dry => ?_
      have differs : other ≠ key := by
        rcases always with rfl | rfl
        · exact apart
        · exact dry
      have frame : grown.lookup other = surrounding.lookup other := by
        cases put with
        | last led frame => exact frame other differs
      rw [Table.lookup_over _ (Environment.distinct_layer including),
        Table.lookup_over _ (Environment.distinct_layer without), frame]

/-- Whether a value names a file. -/
def Names (value : Value) (path : Path) : Prop :=
  ∃ spelling, value = .text spelling ∧ Path.ofString spelling = path

/-- Each of the files that are looked for has a name. -/
theorem names_usualFiles {path : Path} (usual : path ∈ Layers.usualFiles home) : path.names ≠ [] := by
  simp only [Layers.usualFiles, List.mem_cons, List.not_mem_nil, or_false] at usual
  rcases usual with rfl | rfl | rfl
  · decide
  · decide
  · simp [Path.append]

/-- The file that is read has the name on the command line exactly if there is one. An empty name counts as none,
and the file that is found then has one. -/
theorem names_file {path : Path} (found : Layers.file? tree home given = some path) :
    Names ((given.last? "config").getD .null) path ↔
      ∃ spelling, spelling ≠ "" ∧ given.last? "config" = some (.text spelling) := by
  unfold Layers.file? at found
  split at found
  next spelling last =>
    rw [last]
    split at found
    next empty =>
      obtain rfl : spelling = "" := String.isEmpty_iff.mp empty
      have named := names_usualFiles (List.mem_of_find?_eq_some found)
      constructor
      · rintro ⟨spelling, same, rfl⟩
        cases same
        exact absurd rfl named
      · rintro ⟨spelling, notEmpty, same⟩
        cases same
        exact absurd rfl notEmpty
    next notEmpty =>
      obtain rfl := Option.some.inj found
      have there : spelling ≠ "" := fun empty => notEmpty (String.isEmpty_iff.mpr empty)
      exact ⟨fun _ => ⟨spelling, there, rfl⟩, fun _ => ⟨spelling, rfl, rfl⟩⟩
  next noText =>
    constructor
    · rintro ⟨spelling, same, -⟩
      cases last : given.last? "config" with
      | none => simp [last] at same
      | some value =>
        obtain rfl : value = .text spelling := by simpa [last] using same
        exact absurd last (noText spelling)
    · rintro ⟨spelling, -, last⟩
      exact absurd last (noText spelling)

/-- Whether the layers below the command line turn the dry run on. -/
def dryRunBelow (file surrounding : Table) : Value :=
  ((surrounding.lookup "dry_run").or (file.lookup "dry_run")).getD (.bool false)

/-- The command line alone decides on the dry run and on the file that is named.

Whenever settings are resolved, the dry run is on exactly if its flag was given, and the named file is what its flag
gives. So without the flag the layers below are heeded exactly if they leave the dry run off, and the file that was
read is told exactly if the command line spells its name.

The layer of the command line always holds both keys, also when the flags are absent, and lies above all others. So
whatever a file or a variable gives for them is covered. A file that was read without being named is one of the usual
ones, whose names are never empty. -/
theorem resolve_top_level {settings : Settings} (accepted : scan.read texts = .ok given)
    (resolved : resolve tree home environment given = .ok settings) :
    settings.dryRun = .bool (given.has "dry-run") ∧
      settings.configPath = (given.last? "config").getD .null ∧
      (∀ file surrounding, Layers.fromFile tree home given = .ok file →
        Environment.layer environment = .ok surrounding → given.has "dry-run" = false →
        (settings.dryRun = dryRunBelow file surrounding ↔ dryRunBelow file surrounding = .bool false)) ∧
      ∀ path, Layers.file? tree home given = some path →
        (Names settings.configPath path ↔
          ∃ spelling, spelling ≠ "" ∧ given.last? "config" = some (.text spelling)) := by
  obtain ⟨table, unchecked, formats, all, cut, checked⟩ := resolve_eq_ok resolved
  obtain ⟨file, -, all⟩ := bind_eq_ok.mp all
  obtain ⟨surrounding, -, all⟩ := bind_eq_ok.mp all
  obtain ⟨commandLine, onCommandLine, all⟩ := bind_eq_ok.mp all
  obtain rfl := Except.ok.inj all
  obtain ⟨path, run⟩ := Layers.lookup_over_top accepted onCommandLine (Table.over file surrounding)
  obtain ⟨uncheckedPath, uncheckedRun⟩ := ofTable_top cut
  obtain ⟨unchanged, -⟩ := check_eq_ok checked
  have configPath : settings.configPath = (given.last? "config").getD .null := by
    rw [unchanged, uncheckedPath, valueOr, path, Option.getD_some]
  have dryRun : settings.dryRun = .bool (given.has "dry-run") := by
    rw [unchanged, uncheckedRun, valueOr, run, Option.getD_some]
  refine ⟨dryRun, configPath, fun file surrounding _ _ absent => ?_, fun path found => ?_⟩
  · rw [dryRun, absent, eq_comm]
  · rw [configPath]
    exact names_file found

/-- A tree with a file that turns the dry run on. -/
def rehearsal : Tree := ⟨[], [(["vtabscan.toml"], "dry_run = true\n".toUTF8)], by decide⟩

/-- The settings in this file. -/
theorem ofFile_rehearsal :
    Layers.ofFile rehearsal (Path.ofString "vtabscan.toml") = .ok [("dry_run", .bool true)] := by
  have contents : rehearsal.read (Path.ofString "vtabscan.toml") = .ok "dry_run = true\n".toUTF8 := by rfl
  have decoded : Text.decodeStrict "dry_run = true\n".toUTF8.data.toList = .ok "dry_run = true\n".toList := by
    rfl
  have parsed : Toml.parse "dry_run = true\n".toList = .ok [("dry_run", .bool true)] := by cbv
  simp only [Layers.ofFile, contents, decoded, parsed, mapError_ok, bind, Except.bind]

/-- Where the file is found, its settings are read. -/
theorem fromFile_rehearsal {given : Given}
    (found : Layers.file? rehearsal ⟨.root, ["home"]⟩ given = some (Path.ofString "vtabscan.toml")) :
    Layers.fromFile rehearsal ⟨.root, ["home"]⟩ given = .ok [("dry_run", .bool true)] := by
  rw [Layers.fromFile, found]
  exact ofFile_rehearsal

/-- The settings of a lookup in this tree. -/
def rehearsed (configPath : Value) : Settings where
  path := .text "."
  configPath := configPath
  dryRun := .bool false
  lookup := ⟨.text "IPen", .bool false⟩
  files := ⟨standardExclude, .int Filter.standardLimit⟩
  output := ⟨[], .text "./vtabscan_reports", .text "vtable", .bool false⟩
  logging := ⟨.bool true, .bool false, .bool false, .null, .text "vtabscan"⟩

/-- A file that is named is told, and its dry run is not made. -/
theorem rehearsal_top_level :
    let given : Given := ⟨[some "IPen", none], [("config", .text "vtabscan.toml")]⟩
    let settings := rehearsed (.text "vtabscan.toml")
    scan.read ["--config", "vtabscan.toml", "IPen"] = .ok given ∧
      resolve rehearsal ⟨.root, ["home"]⟩ [] given = .ok settings ∧
      settings.configPath = (given.last? "config").getD .null ∧
      (settings.dryRun = dryRunBelow [("dry_run", .bool true)] [] ↔
        dryRunBelow [("dry_run", .bool true)] [] = .bool false) ∧
      (Names settings.configPath (Path.ofString "vtabscan.toml") ↔
        ∃ spelling, spelling ≠ "" ∧ given.last? "config" = some (.text spelling)) := by
  intro given settings
  have accepted : scan.read ["--config", "vtabscan.toml", "IPen"] = .ok given := by rfl
  have found : Layers.file? rehearsal ⟨.root, ["home"]⟩ given = some (Path.ofString "vtabscan.toml") := by
    decide +kernel
  have read := fromFile_rehearsal found
  have resolved : resolve rehearsal ⟨.root, ["home"]⟩ [] given = .ok settings := by
    rw [resolve, Layers.all, read]
    rfl
  obtain ⟨-, configPath, heeded, told⟩ := resolve_top_level accepted resolved
  exact ⟨accepted, resolved, configPath, heeded _ _ read rfl rfl, told _ found⟩

/-- A file that turns the dry run on is found and read: the dry run is off all the same, and the file is not
told. -/
theorem rehearsal_not_made :
    let given : Given := ⟨[some "IPen", none], []⟩
    scan.read ["IPen"] = .ok given ∧ given.has "dry-run" = false ∧
      Layers.file? rehearsal ⟨.root, ["home"]⟩ given = some (Path.ofString "vtabscan.toml") ∧
      Layers.fromFile rehearsal ⟨.root, ["home"]⟩ given = .ok [("dry_run", .bool true)] ∧
      resolve rehearsal ⟨.root, ["home"]⟩ [] given = .ok (rehearsed .null) ∧
      (rehearsed .null).dryRun ≠ .bool true ∧
      ¬ Names (rehearsed .null).configPath (Path.ofString "vtabscan.toml") := by
  intro given
  have accepted : scan.read ["IPen"] = .ok given := by rfl
  have found : Layers.file? rehearsal ⟨.root, ["home"]⟩ given = some (Path.ofString "vtabscan.toml") := by
    decide +kernel
  have read := fromFile_rehearsal found
  have resolved : resolve rehearsal ⟨.root, ["home"]⟩ [] given = .ok (rehearsed .null) := by
    rw [resolve, Layers.all, read]
    rfl
  refine ⟨accepted, rfl, found, read, resolved, by simp [rehearsed], ?_⟩
  rintro ⟨spelling, same, -⟩
  cases same

end Settings

end ComLayout
