import ComLayout.Settings.Basic
import ComLayout.Settings.Layers

/-!
# Resolving the settings

The layered table is cut into sections. A section has to be a table that holds known keys only; what it
does not hold has a standard value. Then the interface has to be given, unless it is a dry run, the
size limit must not be negative, and each format has to be known.
-/

namespace ComLayout

open CommandLine

namespace Settings

/-- The entries of a section, which may hold the known keys only. -/
def entriesOf (table : Table) (name : String) (known : List String) : Except SettingsFault Table :=
  match table.lookup name with
  | none => .ok []
  | some (.table entries) =>
    if entries.all fun entry => known.contains entry.1 then .ok entries else .error .wrongKind
  | some _ => .error .wrongKind

/-- The value of a key, or the standard one. -/
def valueOr (entries : Table) (key : String) (standard : Value) : Value :=
  (entries.lookup key).getD standard

/-- The rules for exclusion that hold unless others are given. -/
def standardExclude : Value := .list (Filter.standardRules.map .text)

/-- The members of a value that lists something: the characters of a text, the items of a list or the
keys of a table. -/
def members : Value → Except SettingsFault (List Value)
  | .text s => .ok (s.toList.map fun c => .text (String.singleton c))
  | .list items => .ok items
  | .table entries => .ok (entries.map fun entry => .text entry.1)
  | _ => .error .wrongKind

/-- The format that a value names. -/
def formatOf (value : Value) : Except SettingsFault ReportFormat :=
  let named := match value with
    | .text s => ReportFormat.ofName? s
    | _ => none
  match named with
  | some format => .ok format
  | none =>
    if !value.isKey then .error .wrongKind
    else match value.display? with
      | some name => .error (.unsupportedFormat name)
      | none => .error .unwritableFormat

/-- Whether a size limit is negative. -/
def isNegative : Value → Except SettingsFault Bool
  | .bool _ => .ok false
  | .int n => .ok (n < 0)
  | .real x => .ok (x.compareInt 0 == some .lt)
  | _ => .error .wrongKind

/-- The settings in a table, and the formats, which are not yet checked. -/
def ofTable (table : Table) : Except SettingsFault (Settings × Value) := do
  let lookup ← entriesOf table "lookup" ["interface", "recurse"]
  let files ← entriesOf table "files" ["exclude", "max_file_bytes"]
  let output ← entriesOf table "output" ["formats", "out_dir", "out_prefix", "overwrite"]
  let logging ← entriesOf table "logging"
    ["progress", "quiet", "verbose", "log_file", "status_handle"]
  .ok ({
    path := valueOr table "path" (.text ".")
    configPath := valueOr table "config_path" .null
    dryRun := valueOr table "dry_run" (.bool false)
    lookup := ⟨valueOr lookup "interface" .null, valueOr lookup "recurse" (.bool false)⟩
    files := ⟨valueOr files "exclude" standardExclude,
      valueOr files "max_file_bytes" (.int Filter.standardLimit)⟩
    output := ⟨[], valueOr output "out_dir" (.text "./vtabscan_reports"),
      valueOr output "out_prefix" (.text "vtable"), valueOr output "overwrite" (.bool false)⟩
    logging := ⟨valueOr logging "progress" (.bool true), valueOr logging "quiet" (.bool false),
      valueOr logging "verbose" (.bool false), valueOr logging "log_file" .null,
      valueOr logging "status_handle" (.text "vtabscan")⟩
  }, valueOr output "formats" (.list []))

/-- Check settings and formats. -/
def check (settings : Settings) (formats : Value) : Except SettingsFault Settings := do
  if !settings.lookup.interface.truthy && !settings.dryRun.truthy then .error .noInterface
  else if ← isNegative settings.files.maxFileBytes then .error .negativeSize
  else
    let formats ← (← members formats).mapM formatOf
    .ok { settings with output := { settings.output with formats } }

/-- The settings of a run. -/
def resolve (tree : Tree) (home : Path) (environment : List (String × String)) (given : Given) :
    Except SettingsFault Settings := do
  let (settings, formats) ← ofTable (← Layers.all tree home environment given)
  check settings formats

end Settings

end ComLayout
