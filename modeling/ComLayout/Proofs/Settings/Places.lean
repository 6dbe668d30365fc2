import ComLayout.Proofs.Steps
import ComLayout.Proofs.Value.Layering
import ComLayout.Settings.Resolve

/-!
# Where settings stand

A setting stands at the same keys in every layer: at the top, or in one of four sections. On the command
line it is given by an operand or a flag. The layer of the command line holds exactly what operands and
flags give, and the resolved settings hold what stands at the keys of each setting, or the standard
value.
-/

namespace ComLayout

open CommandLine

/-- The settings that every layer can give. -/
inductive Setting where
  | path
  | interface
  | recurse
  | exclude
  | maxFileBytes
  | formats
  | outDir
  | outPrefix
  | overwrite
  | progress
  | quiet
  | verbose
  | logFile
  | statusHandle
deriving DecidableEq, Repr

/-- How the command line gives a setting: by an operand, by the last value of a flag, by all values of a
flag, by the items in the last value of a flag, or by a switch. -/
inductive Source where
  | operand (place : Nat)
  | last (flag : String)
  | all (flag : String)
  | items (flag : String)
  | switch (flag : String) (value : Bool)
deriving DecidableEq, Repr

/-- The value that the command line gives, if it gives one. -/
def Source.value? (given : Given) : Source → Option Value
  | .operand place => (given.operand? place).map .text
  | .last flag => given.last? flag
  | .all flag => if given.all flag = [] then none else some (.list (given.all flag))
  | .items flag =>
    match given.last? flag with
    | some (.text names) => some (.list ((Value.itemsOf names.toList).map .text))
    | _ => none
  | .switch flag value => if given.has flag then some (.bool value) else none

/-- A flag is given if it has a value. -/
theorem has_eq (given : Given) (flag : String) : given.has flag = !(given.all flag).isEmpty := by
  unfold Given.has Given.all
  induction given.flags with
  | nil => rfl
  | cons entry rest inductionHypothesis =>
    cases same : entry.1 == flag <;> simp_all

/-- The flag that gives a setting, unless an operand does. -/
def Source.flag? : Source → Option String
  | .operand _ => none
  | .last flag => some flag
  | .all flag => some flag
  | .items flag => some flag
  | .switch flag _ => some flag

namespace Setting

/-- The names of the sections. -/
def sections : List String := ["lookup", "files", "output", "logging"]

/-- The settings in a section. -/
def under (header : String) : List Setting :=
  if header = "lookup" then [.interface, .recurse]
  else if header = "files" then [.exclude, .maxFileBytes]
  else if header = "output" then [.formats, .outDir, .outPrefix, .overwrite]
  else if header = "logging" then [.progress, .quiet, .verbose, .logFile, .statusHandle]
  else []

/-- The key of a setting at the top or in its section. -/
def key : Setting → String
  | .path => "path"
  | .interface => "interface"
  | .recurse => "recurse"
  | .exclude => "exclude"
  | .maxFileBytes => "max_file_bytes"
  | .formats => "formats"
  | .outDir => "out_dir"
  | .outPrefix => "out_prefix"
  | .overwrite => "overwrite"
  | .progress => "progress"
  | .quiet => "quiet"
  | .verbose => "verbose"
  | .logFile => "log_file"
  | .statusHandle => "status_handle"

/-- The keys that lead to a setting: the name of its section, if it is in one, and its own. -/
def keys (s : Setting) : List String :=
  (sections.filter fun header => s ∈ under header) ++ [s.key]

/-- Every setting but the path is in one section. -/
theorem path_or_section (s : Setting) :
    s = .path ∨ ∃ header ∈ sections, s ∈ under header ∧ s.keys = [header, s.key] := by
  cases s <;> decide

/-- The settings in a section have different keys. -/
theorem keys_under : ∀ header ∈ sections, ((under header).map key).Nodup := by decide

/-- No setting is in two sections. -/
theorem under_apart {s : Setting} {header name : String} (among : header ∈ sections)
    (member : s ∈ under header) (differs : name ≠ header) : s ∉ under name := by
  have apart : ∀ header ∈ sections, ∀ s ∈ under header, ∀ name ∈ sections,
      name ≠ header → s ∉ under name := by decide +kernel
  by_cases known : name ∈ sections
  · exact apart header among s member name known differs
  · simp only [sections, List.mem_cons, List.not_mem_nil, or_false, not_or] at known
    simp [under, known]

/-- Where the command line gives a setting. -/
def source : Setting → Source
  | .path => .operand 1
  | .interface => .operand 0
  | .recurse => .switch "recurse" true
  | .exclude => .all "exclude"
  | .maxFileBytes => .last "max-file-bytes"
  | .formats => .items "output"
  | .outDir => .last "out-dir"
  | .outPrefix => .last "out-prefix"
  | .overwrite => .switch "overwrite" true
  | .progress => .switch "no-progress" false
  | .quiet => .switch "quiet" true
  | .verbose => .switch "verbose" true
  | .logFile => .last "log-file"
  | .statusHandle => .last "status-handle"

/-- The value of a setting that no layer gives. -/
def standard : Setting → Value
  | .path => .text "."
  | .interface => .null
  | .recurse => .bool false
  | .exclude => .list (Filter.standardRules.map .text)
  | .maxFileBytes => .int Filter.standardLimit
  | .formats => .list []
  | .outDir => .text "./vtabscan_reports"
  | .outPrefix => .text "vtable"
  | .overwrite => .bool false
  | .progress => .bool true
  | .quiet => .bool false
  | .verbose => .bool false
  | .logFile => .null
  | .statusHandle => .text "vtabscan"

/-- The value of a setting among resolved ones; formats have their names. -/
def valueIn (settings : Settings) : Setting → Value
  | .path => settings.path
  | .interface => settings.lookup.interface
  | .recurse => settings.lookup.recurse
  | .exclude => settings.files.exclude
  | .maxFileBytes => settings.files.maxFileBytes
  | .formats => .list (settings.output.formats.map fun format => .text format.name)
  | .outDir => settings.output.outDir
  | .outPrefix => settings.output.outPrefix
  | .overwrite => settings.output.overwrite
  | .progress => settings.logging.progress
  | .quiet => settings.logging.quiet
  | .verbose => settings.logging.verbose
  | .logFile => settings.logging.logFile
  | .statusHandle => settings.logging.statusHandle

end Setting

namespace Layers

open Table (Clear Distinct at? within)

/-- An entry is there if it has a value. -/
theorem lookup_entry (key name : String) (value : Option Value) :
    (entry key value).lookup name = if name = key then value else none := by
  cases value with
  | none => simp [entry]
  | some v =>
    by_cases same : name = key
    · simp [entry, same]
    · simp [entry, same, List.lookup_cons, beq_false_of_ne same]

/-- A section is found under no other name. -/
theorem lookup_section_of_ne {header name : String} (differs : name ≠ header) (entries : List Table) :
    (section_ header entries).lookup name = none := by
  unfold section_
  split
  next => rfl
  next => simp [List.lookup_cons, beq_false_of_ne differs]

/-- Under its name a section is found with its entries; without entries it is left out. -/
theorem within_section (header : String) (entries : List Table) :
    within ((section_ header entries).lookup header) = entries.flatten := by
  unfold section_
  split
  next empty => simpa [within] using empty.symm
  next => simp [within]

/-- What is found under the name of a section is a table. -/
theorem isTable_section {header : String} {entries : List Table} {value : Value}
    (found : (section_ header entries).lookup header = some value) : value.isTable = true := by
  unfold section_ at found
  split at found
  next => simp at found
  next =>
    obtain rfl : Value.table entries.flatten = value := by simpa using found
    rfl

/-- The keys of an entry. -/
theorem map_fst_entry (key : String) (value : Option Value) :
    ((entry key value).map Prod.fst).Sublist [key] := by
  cases value <;> simp [entry]

/-- The keys of a section. -/
theorem map_fst_section (header : String) (entries : List Table) :
    ((section_ header entries).map Prod.fst).Sublist [header] := by
  unfold section_
  split <;> simp

/-- The keys of entries. -/
theorem sublist_entries (members : List Setting) (value? : Setting → Option Value) :
    ((members.map fun s => entry s.key (value? s)).flatten.map Prod.fst).Sublist
      (members.map Setting.key) := by
  induction members with
  | nil => exact List.Sublist.refl []
  | cons s rest inductionHypothesis =>
    simp only [List.map_cons, List.flatten_cons, List.map_append]
    exact (map_fst_entry s.key (value? s)).append inductionHypothesis

/-- Of entries with different keys the key of each leads to its value. -/
theorem lookup_entries {members : List Setting} (distinct : (members.map Setting.key).Nodup)
    (value? : Setting → Option Value) {s : Setting} (member : s ∈ members) :
    (members.map fun s => entry s.key (value? s)).flatten.lookup s.key = value? s := by
  induction members with
  | nil => simp at member
  | cons first rest inductionHypothesis =>
    obtain ⟨once, others⟩ := List.nodup_cons.mp distinct
    rw [List.map_cons, List.flatten_cons, List.lookup_append, lookup_entry]
    rcases List.mem_cons.mp member with rfl | later
    · have absent : (rest.map fun s => entry s.key (value? s)).flatten.lookup s.key = none :=
        Table.lookup_eq_none fun among => once ((sublist_entries rest value?).subset among)
      rw [if_pos rfl, absent, Option.or_none]
    · have differs : s.key ≠ first.key := by
        intro same
        exact once (same ▸ List.mem_map_of_mem later)
      rw [if_neg differs, Option.none_or]
      exact inductionHypothesis others later

/-- The layer of a command line that gives these values of settings. -/
def holding (configPath dryRun : Value) (value? : Setting → Option Value) : Table :=
  [("config_path", configPath), ("dry_run", dryRun)] ++ entry "path" (value? .path) ++
    Setting.sections.flatMap fun header =>
      section_ header ((Setting.under header).map fun s => entry s.key (value? s))

/-- The formats that are named are those that the command line gives. -/
theorem formats_eq_ok {given : Given} {named : Option Value} (found : formats given = .ok named) :
    named = Setting.formats.source.value? given := by
  unfold formats at found
  simp only [Setting.source, Source.value?]
  split at found
  next absent => simpa [absent] using found.symm
  next names listed => simpa [listed] using found.symm
  next => simp at found

/-- The command line holds what operands and flags give. -/
theorem fromCommandLine_eq_ok {given : Given} {table : Table}
    (read : fromCommandLine given = .ok table) :
    table = holding ((given.last? "config").getD .null) (.bool (given.has "dry-run"))
      fun s => s.source.value? given := by
  obtain ⟨named, found, read⟩ := bind_eq_ok.mp read
  have collected : excluded given = Setting.exclude.source.value? given := by
    cases patterns : given.all "exclude" <;> simp [excluded, Setting.source, Source.value?, patterns]
  rw [formats_eq_ok found, collected] at read
  obtain rfl := Except.ok.inj read
  simp [holding, Setting.sections, Setting.under, Setting.key, Setting.source, Source.value?, switched]

/-- The command line gives no layer exactly if it names no formats where it has to. -/
theorem fromCommandLine_eq_error {given : Given} {fault : SettingsFault} :
    fromCommandLine given = .error fault ↔ formats given = .error fault := by
  unfold fromCommandLine
  cases formats given <;> simp [bind, Except.bind]

variable (configPath dryRun : Value) (value? : Setting → Option Value)

/-- The file that was named and the dry run stand at the top of the layer of a command line. -/
theorem lookup_holding_top :
    (holding configPath dryRun value?).lookup "config_path" = some configPath ∧
      (holding configPath dryRun value?).lookup "dry_run" = some dryRun := by
  simp [holding, List.lookup_cons]

/-- The layer of a command line has each key once. -/
theorem distinct_holding : Distinct (holding configPath dryRun value?) := by
  have keys (headers : List String) (contents : String → List Table) :
      ((headers.flatMap fun header => section_ header (contents header)).map Prod.fst).Sublist headers := by
    induction headers with
    | nil => exact List.Sublist.refl []
    | cons header rest inductionHypothesis =>
      rw [List.flatMap_cons, List.map_append]
      exact (map_fst_section header _).append inductionHypothesis
  have all : ((holding configPath dryRun value?).map Prod.fst).Sublist
      (["config_path", "dry_run"] ++ ["path"] ++ Setting.sections) := by
    simp only [holding, List.map_append]
    exact ((List.Sublist.refl _).append (map_fst_entry _ _)).append (keys _ _)
  exact all.nodup (by decide)

/-- A section of the layer of a command line holds the settings in it. -/
theorem lookup_holding {header : String} (among : header ∈ Setting.sections) :
    (holding configPath dryRun value?).lookup header =
      (section_ header ((Setting.under header).map fun s => entry s.key (value? s))).lookup header := by
  simp only [Setting.sections, List.mem_cons, List.not_mem_nil, or_false] at among
  rcases among with rfl | rfl | rfl | rfl <;>
    simp [holding, Setting.sections, List.lookup_append, List.lookup_cons, lookup_entry, lookup_section_of_ne]

/-- What stands at the top under a name depends only on the path or on the settings in the section of this
name. -/
theorem lookup_holding_congr {name : String} {other? : Setting → Option Value}
    (same : ∀ s, s = .path ∨ s ∈ Setting.under name → other? s = value? s) :
    (holding configPath dryRun other?).lookup name = (holding configPath dryRun value?).lookup name := by
  by_cases among : name ∈ Setting.sections
  · have entries : ((Setting.under name).map fun s => entry s.key (other? s)) =
        (Setting.under name).map fun s => entry s.key (value? s) :=
      List.map_congr_left fun s member => by rw [same s (.inr member)]
    rw [lookup_holding configPath dryRun other? among, lookup_holding configPath dryRun value? among, entries]
  · have noSection (value? : Setting → Option Value) :
        (Setting.sections.flatMap fun header =>
          section_ header ((Setting.under header).map fun s => entry s.key (value? s))).lookup name = none := by
      simp only [Setting.sections, List.mem_cons, List.not_mem_nil, or_false, not_or] at among
      simp [Setting.sections, List.lookup_append, lookup_section_of_ne, among]
    simp only [holding, List.lookup_append, noSection, same .path (.inl rfl)]

/-- What stands in a section under a key depends only on the settings with this key. -/
theorem at?_holding_congr {header key : String} (among : header ∈ Setting.sections)
    {other? : Setting → Option Value}
    (same : ∀ s ∈ Setting.under header, s.key = key → other? s = value? s) :
    at? [header, key] (holding configPath dryRun other?) =
      at? [header, key] (holding configPath dryRun value?) := by
  have alike (members : List Setting) (same : ∀ s ∈ members, s.key = key → other? s = value? s) :
      (members.map fun s => entry s.key (other? s)).flatten.lookup key =
        (members.map fun s => entry s.key (value? s)).flatten.lookup key := by
    induction members with
    | nil => rfl
    | cons s rest inductionHypothesis =>
      have later := inductionHypothesis fun t member => same t (List.mem_cons_of_mem s member)
      rw [List.map_cons, List.map_cons, List.flatten_cons, List.flatten_cons, List.lookup_append,
        List.lookup_append, later, lookup_entry, lookup_entry]
      split
      next here => rw [same s List.mem_cons_self here.symm]
      next => rfl
  simp only [at?]
  rw [lookup_holding configPath dryRun other? among, lookup_holding configPath dryRun value? among,
    within_section, within_section, alike _ same]

/-- In the layer of a command line the keys of a setting lead to its value. -/
theorem at?_holding (s : Setting) : at? s.keys (holding configPath dryRun value?) = value? s := by
  rcases s.path_or_section with rfl | ⟨header, among, member, keys⟩
  · change (holding configPath dryRun value?).lookup "path" = value? .path
    simp [holding, Setting.sections, List.lookup_append, List.lookup_cons, lookup_entry, lookup_section_of_ne]
  · rw [keys, at?, lookup_holding configPath dryRun value? among, within_section]
    exact lookup_entries (Setting.keys_under header among) value? member

/-- In the layer of a command line the way to each setting is clear. -/
theorem clear_holding (s : Setting) : Clear s.keys (holding configPath dryRun value?) := by
  have top := distinct_holding configPath dryRun value?
  rcases s.path_or_section with rfl | ⟨header, among, member, keys⟩
  · exact top
  · rw [keys]
    refine ⟨top, ?_, ?_⟩
    · rw [lookup_holding configPath dryRun value? among]
      exact fun value => isTable_section
    · rw [lookup_holding configPath dryRun value? among, within_section]
      exact (sublist_entries _ value?).nodup (Setting.keys_under header among)

end Layers

namespace Settings

open Table (at? within)

/-- The entries of a section are those of the table that stands under its name. -/
theorem entriesOf_eq_ok {table entries : Table} {header : String} {known : List String}
    (cut : entriesOf table header known = .ok entries) : entries = within (table.lookup header) := by
  unfold entriesOf at cut
  split at cut
  next absent => simpa [absent, within] using cut.symm
  next found =>
    split at cut
    next => simpa [found, within] using cut.symm
    next => simp at cut
  next => simp at cut

/-- Where a table can be cut into sections, each setting has the value at its keys or the standard one;
the formats are not checked yet. -/
theorem ofTable_value {table : Table} {settings : Settings} {formats : Value}
    (cut : ofTable table = .ok (settings, formats)) (s : Setting) :
    (if s = .formats then formats else s.valueIn settings) = (at? s.keys table).getD s.standard := by
  obtain ⟨lookup, cutLookup, cut⟩ := bind_eq_ok.mp cut
  obtain ⟨files, cutFiles, cut⟩ := bind_eq_ok.mp cut
  obtain ⟨output, cutOutput, cut⟩ := bind_eq_ok.mp cut
  obtain ⟨logging, cutLogging, cut⟩ := bind_eq_ok.mp cut
  rw [entriesOf_eq_ok cutLookup, entriesOf_eq_ok cutFiles, entriesOf_eq_ok cutOutput,
    entriesOf_eq_ok cutLogging] at cut
  obtain ⟨rfl, rfl⟩ := Prod.mk.inj (Except.ok.inj cut)
  cases s <;> rfl

/-- The values at the top, which are no settings of a section. -/
theorem ofTable_top {table : Table} {settings : Settings} {formats : Value}
    (cut : ofTable table = .ok (settings, formats)) :
    settings.configPath = valueOr table "config_path" .null ∧
      settings.dryRun = valueOr table "dry_run" (.bool false) := by
  obtain ⟨lookup, -, cut⟩ := bind_eq_ok.mp cut
  obtain ⟨files, -, cut⟩ := bind_eq_ok.mp cut
  obtain ⟨output, -, cut⟩ := bind_eq_ok.mp cut
  obtain ⟨logging, -, cut⟩ := bind_eq_ok.mp cut
  obtain ⟨rfl, rfl⟩ := Prod.mk.inj (Except.ok.inj cut)
  exact ⟨rfl, rfl⟩

/-- Only what stands at the top of a table matters for how it is cut. -/
theorem ofTable_congr {table other : Table} (same : ∀ key, table.lookup key = other.lookup key) :
    ofTable table = ofTable other := by
  simp only [ofTable, entriesOf, valueOr, same]

/-- Settings that pass the checks keep their values; the formats that are listed are all known. -/
theorem check_eq_ok {unchecked settings : Settings} {formats : Value}
    (checked : check unchecked formats = .ok settings) :
    settings = { unchecked with output := { unchecked.output with formats := settings.output.formats } } ∧
      ∃ items, members formats = .ok items ∧ items.mapM formatOf = .ok settings.output.formats := by
  unfold check at checked
  split at checked
  next => simp at checked
  next =>
    obtain ⟨negative, -, checked⟩ := bind_eq_ok.mp checked
    split at checked
    next => simp at checked
    next =>
      obtain ⟨items, listed, checked⟩ := bind_eq_ok.mp checked
      obtain ⟨known, named, checked⟩ := bind_eq_ok.mp checked
      obtain rfl := Except.ok.inj checked
      exact ⟨rfl, items, listed, named⟩

/-- Settings are resolved by cutting the layered table and checking what comes out. -/
theorem resolve_eq_ok {tree : Tree} {home : Path} {environment : List (String × String)} {given : Given}
    {settings : Settings} (resolved : resolve tree home environment given = .ok settings) :
    ∃ table unchecked formats, Layers.all tree home environment given = .ok table ∧
      ofTable table = .ok (unchecked, formats) ∧ check unchecked formats = .ok settings := by
  obtain ⟨table, layered, rest⟩ := bind_eq_ok.mp resolved
  obtain ⟨⟨unchecked, formats⟩, cut, checked⟩ := bind_eq_ok.mp rest
  exact ⟨table, unchecked, formats, layered, cut, checked⟩

end Settings

end ComLayout
