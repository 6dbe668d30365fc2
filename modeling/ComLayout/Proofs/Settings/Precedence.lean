import ComLayout.Proofs.Settings.EnvironmentLayer
import ComLayout.Proofs.Settings.Places
import Mathlib

/-!
# Which layer decides

The command line decides over the environment, the environment over the file, and the file over the
standard values. This holds for each setting by itself: a layer that does not give a setting leaves it
to the layers below, whatever else it gives in the same section.

The file may hold anything but tables in its sections, and each variable of the environment that begins
as those of this program has to give a setting of its own.
-/

namespace ComLayout

open CommandLine
open Table (Apart Clear PutAt at? within)
open Value (overlay)

namespace Setting

/-- The settings in their order. -/
def each : List Setting := .path :: sections.flatMap under

/-- Every setting is among them. -/
theorem mem_each (s : Setting) : s ∈ each := by cases s <;> decide

/-- Different settings stand at different places, and none within another. -/
theorem keys_apart {s other : Setting} (differs : s ≠ other) : Apart s.keys other.keys := by
  have apart : ∀ s ∈ each, ∀ other ∈ each, s ≠ other →
      ¬ s.keys <+: other.keys ∧ ¬ other.keys <+: s.keys := by decide +kernel
  exact apart s s.mem_each other other.mem_each differs

/-- What follows the lead in the name of the variable that gives a setting, in lower case. -/
def spelling (s : Setting) : String := "__".intercalate s.keys

/-- Whether a variable has the name that gives a setting, in any case. -/
def isNamedBy (s : Setting) (name : String) : Bool :=
  Environment.lead.isPrefixOf name.toList &&
    Text.lowerText (name.toList.drop Environment.lead.length) == s.spelling.toList

/-- The name of the variable for a setting leads to its keys. -/
theorem keysOf_of_isNamedBy {s : Setting} {name : String} (named : s.isNamedBy name = true) :
    Environment.keysOf? name.toList = some s.keys := by
  obtain ⟨lead, spelled⟩ := Bool.and_eq_true_iff.mp named
  have cut : ∀ s ∈ each, (Environment.splitDouble s.spelling.toList).map String.ofList = s.keys := by
    decide +kernel
  rw [Environment.keysOf?, if_pos lead, beq_iff_eq.mp spelled, cut s s.mem_each]

example : [(Setting.interface, "VTABSCAN_LOOKUP__INTERFACE"), (.exclude, "VTABSCAN_FILES__EXCLUDE"),
    (.formats, "VTABSCAN_OUTPUT__FORMATS"), (.outDir, "VTABSCAN_OUTPUT__OUT_DIR"),
    (.outPrefix, "VTABSCAN_OUTPUT__OUT_PREFIX"), (.statusHandle, "VTABSCAN_LOGGING__STATUS_HANDLE")].all
      (fun (s, name) => s.isNamedBy name) = true := by decide +kernel

/-- A variable gives one setting only. -/
theorem eq_of_isNamedBy {s other : Setting} {name : String} (named : s.isNamedBy name = true)
    (too : other.isNamedBy name = true) : s = other := by
  by_cases same : s = other
  · exact same
  · have keys : s.keys = other.keys :=
      Option.some.inj ((keysOf_of_isNamedBy named).symm.trans (keysOf_of_isNamedBy too))
    exact absurd (keys ▸ List.prefix_refl s.keys) (keys_apart same).1

/-- The value that the environment gives a setting, if it gives one. -/
def inEnvironment? (s : Setting) (environment : List (String × String)) : Option Value :=
  (environment.find? fun entry => s.isNamedBy entry.1).map fun entry => Value.ofText entry.2

/-- A text never spells a table. -/
theorem isTable_inEnvironment {s : Setting} {environment : List (String × String)} {value : Value}
    (given : s.inEnvironment? environment = some value) : value.isTable = false := by
  obtain ⟨entry, -, rfl⟩ := Option.map_eq_some_iff.mp given
  exact Value.isTable_ofText entry.2

/-- Each variable that begins as those of this program gives a setting, and no two give the same. -/
structure EachItsOwn (environment : List (String × String)) : Prop where
  known : ∀ entry ∈ environment, Environment.lead.isPrefixOf entry.1.toList = true →
    ∃ s : Setting, s.isNamedBy entry.1 = true
  once : environment.Pairwise fun entry later =>
    ∀ s : Setting, s.isNamedBy entry.1 = true → s.isNamedBy later.1 = false

namespace EachItsOwn

variable {entry : String × String} {environment : List (String × String)}

/-- The variables behind the first. -/
theorem tail (own : EachItsOwn (entry :: environment)) : EachItsOwn environment :=
  ⟨fun later member => own.known later (List.mem_cons_of_mem entry member), (List.pairwise_cons.mp own.once).2⟩

/-- A variable that leads to keys gives the setting that stands there. -/
theorem isNamedBy (own : EachItsOwn environment) (member : entry ∈ environment) {keys : List String}
    (leads : Environment.keysOf? entry.1.toList = some keys) :
    ∃ s : Setting, s.isNamedBy entry.1 = true ∧ keys = s.keys := by
  have lead : Environment.lead.isPrefixOf entry.1.toList = true := by
    unfold Environment.keysOf? at leads
    split at leads
    next lead => exact lead
    next => simp at leads
  obtain ⟨s, named⟩ := own.known entry member lead
  exact ⟨s, named, Option.some.inj (leads.symm.trans (keysOf_of_isNamedBy named))⟩

/-- What the first variable gives, none behind it does. -/
theorem inEnvironment_tail (own : EachItsOwn (entry :: environment)) {s : Setting}
    (named : s.isNamedBy entry.1 = true) : s.inEnvironment? environment = none := by
  have others : ∀ later ∈ environment, s.isNamedBy later.1 = false :=
    fun later member => (List.pairwise_cons.mp own.once).1 later member s named
  simpa [inEnvironment?] using others

/-- Each variable leads to the place of a setting or elsewhere. -/
theorem places (own : EachItsOwn environment) (s : Setting) :
    ∀ entry ∈ environment, ∀ keys, Environment.keysOf? entry.1.toList = some keys →
      keys = s.keys ∨ Apart s.keys keys := by
  intro entry member keys leads
  obtain ⟨other, -, rfl⟩ := own.isNamedBy member leads
  by_cases same : other = s
  · exact .inl (same ▸ rfl)
  · exact .inr (keys_apart fun equal => same equal.symm)

end EachItsOwn

/-- While variables are read, a setting has the value that one of them gives it, or the one it had. -/
theorem at?_layerFrom {environment : List (String × String)} {table layered : Table}
    (own : EachItsOwn environment) (read : Environment.layerFrom table environment = .ok layered)
    (s : Setting) : at? s.keys layered = (s.inEnvironment? environment).or (at? s.keys table) := by
  induction environment generalizing table with
  | nil =>
    obtain rfl := Except.ok.inj read
    rfl
  | cons entry rest inductionHypothesis =>
    obtain ⟨name, raw⟩ := entry
    rw [Environment.layerFrom] at read
    cases leads : Environment.keysOf? name.toList with
    | none =>
      simp only [leads] at read
      have unnamed : s.isNamedBy name = false := by
        rw [Bool.eq_false_iff]
        intro named
        simp [keysOf_of_isNamedBy named] at leads
      rw [inductionHypothesis own.tail read]
      simp [inEnvironment?, unnamed]
    | some keys =>
      simp only [leads] at read
      obtain ⟨other, named, rfl⟩ := own.isNamedBy List.mem_cons_self leads
      obtain ⟨grown, inserted, read⟩ := bind_eq_ok.mp read
      have changed : PutAt (Value.ofText raw) other.keys table grown :=
        Environment.putAt_of_insert (by simp [keys]) inserted
      rw [inductionHypothesis own.tail read]
      by_cases same : other = s
      · subst same
        rw [own.inEnvironment_tail named, changed.at?_self]
        simp [inEnvironment?, named]
      · have unnamed : s.isNamedBy name = false := by
          rw [Bool.eq_false_iff]
          exact fun too => same (eq_of_isNamedBy named too)
        rw [changed.at?_apart (keys_apart same)]
        simp [inEnvironment?, unnamed]

/-- The environment gives each setting the value of its variable. -/
theorem at?_layer {environment : List (String × String)} {surrounding : Table}
    (own : EachItsOwn environment) (read : Environment.layer environment = .ok surrounding) (s : Setting) :
    at? s.keys surrounding = s.inEnvironment? environment := by
  rw [at?_layerFrom own read, Table.at?_nil, Option.or_none]

/-- A table with tables for sections, which hold no further tables. -/
def Flat (file : Table) : Prop :=
  ∀ header ∈ sections, ∀ value, file.lookup header = some value →
    ∃ entries, value = .table entries ∧ ∀ entry ∈ entries, entry.2.isTable = false

/-- What stands in a section of a flat table is no table. -/
theorem Flat.isTable_at? {file : Table} (flat : Flat file) {s : Setting} (inSection : s ≠ .path)
    {value : Value} (found : at? s.keys file = some value) : value.isTable = false := by
  obtain rfl | ⟨header, among, -, keys⟩ := s.path_or_section
  · exact absurd rfl inSection
  · rw [keys, at?] at found
    cases there : file.lookup header with
    | none => simp [there, within, at?] at found
    | some held =>
      obtain ⟨entries, rfl, plain⟩ := flat header among held there
      simp only [there, within, at?] at found
      obtain ⟨before, after, rfl, -⟩ := List.lookup_eq_some_iff.mp found
      exact plain (s.key, value) (by simp)

/-- What the layers give a setting: the command line before the environment, and this before the file. -/
def layered (s : Setting) (given : Given) (environment : List (String × String)) (file : Table) :
    Option Value :=
  ((s.source.value? given).or (s.inEnvironment? environment)).or (at? s.keys file)

/-- In the layered table the keys of a setting lead to what the layers give it. Only the path may lie over a table
in the file, and what a command line gives for it is a text. -/
theorem at?_all {tree : Tree} {home : Path} {environment : List (String × String)} {given : Given}
    {file table : Table} (read : Layers.fromFile tree home given = .ok file) (flat : Flat file)
    (own : EachItsOwn environment) (all : Layers.all tree home environment given = .ok table)
    (s : Setting) : at? s.keys table = s.layered given environment file := by
  obtain ⟨sameFile, readSame, rest⟩ := bind_eq_ok.mp all
  obtain rfl : file = sameFile := Except.ok.inj (read.symm.trans readSame)
  obtain ⟨surrounding, surroundings, rest⟩ := bind_eq_ok.mp rest
  obtain ⟨commandLine, readGiven, rest⟩ := bind_eq_ok.mp rest
  obtain rfl := Except.ok.inj rest
  rw [mapError_eq_ok] at surroundings
  obtain rfl := Layers.fromCommandLine_eq_ok readGiven
  have clear : Clear s.keys surrounding := Environment.clear_layer (own.places s) surroundings
  rw [Table.at?_over _ (Layers.clear_holding _ _ _ s), Table.at?_over file clear, Layers.at?_holding,
    at?_layer own surroundings]
  have fromEnvironment : overlay (at? s.keys file) (s.inEnvironment? environment) =
      (s.inEnvironment? environment).or (at? s.keys file) :=
    Value.overlay_eq_or (.inl fun value => isTable_inEnvironment)
  rw [fromEnvironment, layered, Option.or_assoc]
  apply Value.overlay_eq_or
  by_cases inSection : s = .path
  · subst inSection
    refine .inl fun value found => ?_
    obtain ⟨text, -, rfl⟩ := Option.map_eq_some_iff.mp found
    rfl
  · refine .inr fun value found => ?_
    rcases Option.or_eq_some_iff.mp found with surrounds | ⟨-, stands⟩
    · exact isTable_inEnvironment surrounds
    · exact flat.isTable_at? inSection stands

/-- The usual name of a format that has two. -/
def usualFormat : Value → Value
  | .text "markdown" => .text "md"
  | value => value

/-- Only a text names a format. -/
theorem formatOf_eq_ok {value : Value} {format : ReportFormat}
    (named : Settings.formatOf value = .ok format) :
    ∃ name, value = .text name ∧ ReportFormat.ofName? name = some format := by
  unfold Settings.formatOf at named
  dsimp only at named
  split at named
  next found =>
    obtain rfl := Except.ok.inj named
    split at found
    next name => exact ⟨name, rfl, found⟩
    next => simp at found
  next =>
    split at named
    next => simp at named
    next => split at named <;> simp at named

/-- The usual name of a format is the one it has in a report. -/
theorem usualFormat_of_formatOf {value : Value} {format : ReportFormat}
    (named : Settings.formatOf value = .ok format) : usualFormat value = .text format.name := by
  obtain ⟨name, rfl, found⟩ := formatOf_eq_ok named
  unfold ReportFormat.ofName? at found
  split at found
  next same => cases same; cases found; rfl
  next =>
    split at found
    next same => cases same; cases found; rfl
    next =>
      split at found
      next same => rcases same with same | same <;> cases same <;> cases found <;> rfl
      next => simp at found

/-- The formats of a list have their usual names. -/
theorem map_usualFormat {items : List Value} {formats : List ReportFormat}
    (named : items.mapM Settings.formatOf = .ok formats) :
    items.map usualFormat = formats.map fun format => .text format.name := by
  induction items generalizing formats with
  | nil =>
    obtain rfl := Except.ok.inj named
    rfl
  | cons item rest inductionHypothesis =>
    rw [List.mapM_cons] at named
    obtain ⟨format, first, named⟩ := bind_eq_ok.mp named
    obtain ⟨others, later, named⟩ := bind_eq_ok.mp named
    obtain rfl := Except.ok.inj named
    rw [List.map_cons, List.map_cons, usualFormat_of_formatOf first, inductionHypothesis later]

/-- A value as a setting keeps it. The formats become the list of what the value holds, each by its
usual name; all other values stay as they are. -/
def Kept (s : Setting) (value : Value) (settings : Settings) : Prop :=
  if s = .formats then
    ∃ items, Settings.members value = .ok items ∧ s.valueIn settings = .list (items.map usualFormat)
  else s.valueIn settings = value

/-- What stands in the layered table is what the resolved settings keep. -/
theorem kept_of_resolve {tree : Tree} {home : Path} {environment : List (String × String)} {given : Given}
    {settings : Settings} (resolved : Settings.resolve tree home environment given = .ok settings) :
    ∃ table, Layers.all tree home environment given = .ok table ∧
      ∀ s : Setting, s.Kept ((at? s.keys table).getD s.standard) settings := by
  obtain ⟨table, unchecked, formats, all, cut, checked⟩ := Settings.resolve_eq_ok resolved
  obtain ⟨unchanged, items, listed, named⟩ := Settings.check_eq_ok checked
  refine ⟨table, all, fun s => ?_⟩
  have value := Settings.ofTable_value cut s
  unfold Kept
  split at value
  next isFormats =>
    subst isFormats
    exact ⟨items, value ▸ listed, congrArg Value.list (map_usualFormat named).symm⟩
  next others =>
    rw [if_neg others, ← value, unchanged]
    cases s <;> first | rfl | exact absurd rfl others

/-- Whenever settings are resolved, each has the value of the uppermost layer that gives it.

This is the value that the command line gives, else the one that the variable of the setting spells, else the one in
the file, else the standard value; no layer changes what it does not give. The formats are kept by their usual names,
all other values as they are.

Layering leaves what the keys of a setting lead to in the lower table unless the upper one has something there. What
stands on the way are the tables of the sections, in all layers, for a file that is flat. The setting of the path is
the only one that lies at the top, where a file may hold a table, and it is given as a text. What is checked at the
end changes no value. -/
theorem resolve_by_precedence {tree : Tree} {home : Path} {environment : List (String × String)}
    {given : Given} {file : Table} {settings : Settings}
    (read : Layers.fromFile tree home given = .ok file) (flat : Flat file) (own : EachItsOwn environment)
    (resolved : Settings.resolve tree home environment given = .ok settings) (s : Setting) :
    s.Kept ((s.layered given environment file).getD s.standard) settings := by
  obtain ⟨table, all, kept⟩ := kept_of_resolve resolved
  rw [← at?_all read flat own all s]
  exact kept s

/-- The text of a file of settings. -/
def workshopText : String := "path = \"sdk\"\n[output]\nformats = [\"markdown\"]\nout_dir = \"a\"\n"

/-- A tree with this file. -/
def workshop : Tree := ⟨[], [(["vtabscan.toml"], workshopText.toUTF8)], by decide⟩

/-- The settings in the file. -/
def workshopFile : Table :=
  [("path", .text "sdk"), ("output", .table [("formats", .list [.text "markdown"]), ("out_dir", .text "a")])]

/-- The path and the format of the file, the directory of a variable, and what a command line gives. -/
def workshopSettings : Settings where
  path := .text "sdk"
  configPath := .null
  dryRun := .bool false
  lookup := ⟨.text "IPen", .bool false⟩
  files := ⟨Settings.standardExclude, .int Filter.standardLimit⟩
  output := ⟨[.markdown], .text "b", .text "vtable", .bool false⟩
  logging := ⟨.bool false, .bool false, .bool false, .null, .text "vtabscan"⟩

/-- The file, a variable and the command line each give settings of the same run. -/
theorem workshop_by_precedence :
    let given : Given := ⟨[some "IPen", none], [("no-progress", .bool true)]⟩
    let environment := [("VTABSCAN_OUTPUT__OUT_DIR", "b")]
    Settings.resolve workshop ⟨.root, ["home"]⟩ environment given = .ok workshopSettings ∧
      ∀ s : Setting, s.Kept ((s.layered given environment workshopFile).getD s.standard) workshopSettings := by
  intro given environment
  have read : Layers.fromFile workshop ⟨.root, ["home"]⟩ given = .ok workshopFile := by
    have found : Layers.file? workshop ⟨.root, ["home"]⟩ given = some (Path.ofString "vtabscan.toml") := by
      decide +kernel
    have contents : workshop.read (Path.ofString "vtabscan.toml") = .ok workshopText.toUTF8 := by rfl
    have decoded : Text.decodeStrict workshopText.toUTF8.data.toList = .ok workshopText.toList := by rfl
    have parsed : Toml.parse workshopText.toList = .ok workshopFile := by cbv
    simp only [Layers.fromFile, found, Layers.ofFile, contents, decoded, parsed, mapError_ok, bind, Except.bind]
  have flat : Flat workshopFile := by
    intro header among value found
    simp only [sections, List.mem_cons, List.not_mem_nil, or_false] at among
    rcases among with rfl | rfl | rfl | rfl <;> simp [workshopFile, List.lookup_cons] at found
    subst found
    exact ⟨_, rfl, by simp [Value.isTable]⟩
  have own : EachItsOwn environment := by
    refine ⟨?_, List.pairwise_singleton _ _⟩
    intro entry member _
    obtain rfl := List.mem_singleton.mp member
    exact ⟨.outDir, by decide +kernel⟩
  have surrounding : Environment.layer environment = .ok [("output", .table [("out_dir", .text "b")])] := by
    rfl
  have resolved : Settings.resolve workshop ⟨.root, ["home"]⟩ environment given = .ok workshopSettings := by
    rw [Settings.resolve, Layers.all, read, surrounding]
    rfl
  exact ⟨resolved, resolve_by_precedence read flat own resolved⟩

end Setting

end ComLayout
