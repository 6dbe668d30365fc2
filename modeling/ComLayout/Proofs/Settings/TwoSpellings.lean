import ComLayout.CommandLine.Commands
import ComLayout.Proofs.Settings.Precedence
import ComLayout.Proofs.Settings.SameSection

/-!
# One text in a variable and on the command line

Some settings take one text from a variable as well as from the command line. The command line knows what
the text is for: a list takes it as an item, and every other setting as it stands. The variable does not
know this. What it holds is read as a truth value or a number if it looks like one, and is never a list
without a comma. So the two agree exactly if the setting is no list and the text looks like neither.

Both leave the layered table the same but for the value of this one setting.
-/

namespace ComLayout

open CommandLine
open Table (Apart Clear Distinct PutAt at? within)
open Value (overlay)

/-- One command line gives what another gives, and a text at a source besides, where the other gives
nothing. -/
structure Adds (source : Source) (text : String) (bare full : Given) : Prop where
  flags : ∀ flag, full.all flag = if source.flag? = some flag then [.text text] else bare.all flag
  operands : ∀ place, full.operand? place = if source = .operand place then some text else bare.operand? place
  noFlag : ∀ flag, source.flag? = some flag → bare.all flag = []
  noOperand : ∀ place, source = .operand place → bare.operand? place = none

/-- The value that a source makes of one text. -/
def Source.valueOf (text : String) : Source → Value
  | .operand _ => .text text
  | .last _ => .text text
  | .all _ => .list [.text text]
  | .items _ => .list ((Value.itemsOf text.toList).map .text)
  | .switch _ value => .bool value

/-- No source makes a table of a text. -/
theorem Source.isTable_valueOf (source : Source) (text : String) : (source.valueOf text).isTable = false := by
  cases source <;> rfl

namespace Adds

variable {source : Source} {text : String} {bare full : Given}

/-- At the source there is nothing before. -/
theorem value?_bare (adds : Adds source text bare full) : source.value? bare = none := by
  cases source with
  | operand place => simp [Source.value?, adds.noOperand place rfl]
  | last flag => simp [Source.value?, Given.last?, adds.noFlag flag rfl]
  | all flag => simp [Source.value?, adds.noFlag flag rfl]
  | items flag => simp [Source.value?, Given.last?, adds.noFlag flag rfl]
  | switch flag value => simp [Source.value?, has_eq, adds.noFlag flag rfl]

/-- At the source the text is given. -/
theorem value?_full (adds : Adds source text bare full) : source.value? full = some (source.valueOf text) := by
  cases source with
  | operand place => simp [Source.value?, Source.valueOf, adds.operands place]
  | last flag => simp [Source.value?, Source.valueOf, Given.last?, adds.flags flag, Source.flag?]
  | all flag => simp [Source.value?, Source.valueOf, adds.flags flag, Source.flag?]
  | items flag => simp [Source.value?, Source.valueOf, Given.last?, adds.flags flag, Source.flag?]
  | switch flag value => simp [Source.value?, Source.valueOf, has_eq, adds.flags flag, Source.flag?]

/-- Another flag has the values that it had. -/
theorem all_eq (adds : Adds source text bare full) {flag : String} (differs : source.flag? ≠ some flag) :
    full.all flag = bare.all flag := by
  rw [adds.flags, if_neg differs]

/-- Another source gives what it gave. -/
theorem value?_eq (adds : Adds source text bare full) {other : Source} (differs : source ≠ other)
    (apart : ∀ flag, other.flag? = some flag → source.flag? ≠ some flag) :
    other.value? full = other.value? bare := by
  cases other with
  | operand place => simp [Source.value?, adds.operands place, differs]
  | last flag => simp [Source.value?, Given.last?, adds.all_eq (apart flag rfl)]
  | all flag => simp [Source.value?, adds.all_eq (apart flag rfl)]
  | items flag => simp [Source.value?, Given.last?, adds.all_eq (apart flag rfl)]
  | switch flag value => simp [Source.value?, has_eq, adds.all_eq (apart flag rfl)]

/-- A flag behind all others adds its text, if it was not given before. -/
theorem of_flag {flag : String} (read : source.flag? = some flag) (without : bare.all flag = [])
    (text : String) : Adds source text bare { bare with flags := bare.flags ++ [(flag, .text text)] } := by
  have noOperand (place : Nat) : source ≠ .operand place := by
    rintro rfl
    simp [Source.flag?] at read
  refine ⟨fun other => ?_, fun place => ?_, fun other given => ?_, fun place here => absurd here (noOperand place)⟩
  · by_cases same : flag = other
    · subst same
      have before : bare.flags.filter (fun entry => entry.1 == flag) = [] := List.map_eq_nil_iff.mp without
      simp [read, Given.all, before]
    · have differs : source.flag? ≠ some other := fun given => same (Option.some.inj (read.symm.trans given))
      simp [differs, Given.all, same]
  · rw [if_neg (noOperand place)]
    rfl
  · rw [← Option.some.inj (read.symm.trans given)]
    exact without

end Adds

namespace Setting

/-- The settings that are texts and can be given by one. -/
def texts : List Setting := [.outDir, .outPrefix, .interface, .statusHandle]

/-- The settings that are lists and can be given by one text. -/
def lists : List Setting := [.formats, .exclude]

/-- Different settings are given at different places of the command line. -/
theorem source_apart {s other : Setting} (differs : s ≠ other) :
    s.source ≠ other.source ∧ ∀ flag, other.source.flag? = some flag → s.source.flag? ≠ some flag := by
  have apart : ∀ s ∈ each, ∀ other ∈ each, s ≠ other →
      s.source ≠ other.source ∧ (other.source.flag? = none ∨ s.source.flag? ≠ other.source.flag?) := by
    decide +kernel
  obtain ⟨sources, flags⟩ := apart s s.mem_each other other.mem_each differs
  refine ⟨sources, fun flag given same => ?_⟩
  rcases flags with none | differ
  · simp [none] at given
  · exact differ (same.trans given.symm)

/-- No setting is given by the flags that name the file and turn the dry run on. -/
theorem source_flag_ne (s : Setting) : s.source.flag? ≠ some "config" ∧ s.source.flag? ≠ some "dry-run" := by
  have apart : ∀ s ∈ each, s.source.flag? ≠ some "config" ∧ s.source.flag? ≠ some "dry-run" := by decide +kernel
  exact apart s s.mem_each

end Setting

namespace Layers

/-- Two command lines that differ in the text for one setting lead to the same fault, or to layers that give
the same but for this setting. -/
theorem fromCommandLine_adds {s : Setting} {text : String} {bare full : Given}
    (adds : Adds s.source text bare full) :
    (∃ fault, fromCommandLine bare = .error fault ∧ fromCommandLine full = .error fault) ∨
      ∃ configPath dryRun,
        fromCommandLine bare = .ok (holding configPath dryRun fun t => t.source.value? bare) ∧
        fromCommandLine full = .ok (holding configPath dryRun fun t => t.source.value? full) := by
  obtain ⟨noConfig, noDryRun⟩ := s.source_flag_ne
  have layer {given : Given} {named : Option Value} (found : formats given = .ok named) :
      fromCommandLine given = .ok (holding ((given.last? "config").getD .null) (.bool (given.has "dry-run"))
        fun t => t.source.value? given) := by
    cases read : fromCommandLine given with
    | error fault => simp [fromCommandLine_eq_error.mp read] at found
    | ok table => rw [fromCommandLine_eq_ok read]
  have path : (full.last? "config").getD .null = (bare.last? "config").getD .null := by
    rw [Given.last?, Given.last?, adds.all_eq noConfig]
  have run : full.has "dry-run" = bare.has "dry-run" := by rw [has_eq, has_eq, adds.all_eq noDryRun]
  by_cases here : s.source.flag? = some "output"
  · have without : formats bare = .ok none := by simp [formats, Given.last?, adds.noFlag "output" here]
    have including : formats full = .ok (some (.list ((Value.itemsOf text.toList).map .text))) := by
      simp [formats, Given.last?, adds.flags "output", here]
    exact .inr ⟨_, _, layer without, by rw [layer including, path, run]⟩
  · have same : formats full = formats bare := by rw [formats, formats, Given.last?, Given.last?, adds.all_eq here]
    cases found : formats bare with
    | error fault =>
      exact .inl ⟨fault, fromCommandLine_eq_error.mpr found, fromCommandLine_eq_error.mpr (same.trans found)⟩
    | ok named => exact .inr ⟨_, _, layer found, by rw [layer (same.trans found), path, run]⟩

end Layers

namespace Layers

variable {s : Setting} {header text : String} {value : Value} {bare full : Given}
  {surrounding grown : Table}

/-- The layered tables of the two spellings of a text are the same but for the one setting: there the value that the
variable spells stands in place of the one that the command line gives. Neither at the top nor in another section is
there a setting of the same place. -/
theorem sameBut_over (among : header ∈ Setting.sections) (keys : s.keys = [header, s.key])
    (member : s ∈ Setting.under header) (plain : value.isTable = false)
    (clear : Clear s.keys surrounding) (clearGrown : Clear s.keys grown) (put : PutAt value s.keys surrounding grown)
    (adds : Adds s.source text bare full) (file : Table) (configPath dryRun : Value) :
    SameBut header s.key value (s.source.valueOf text)
      (Table.over (Table.over file grown) (holding configPath dryRun fun t => t.source.value? bare))
      (Table.over (Table.over file surrounding) (holding configPath dryRun fun t => t.source.value? full)) := by
  have others {t : Setting} (differs : s ≠ t) : t.source.value? full = t.source.value? bare :=
    adds.value?_eq (Setting.source_apart differs).1 (Setting.source_apart differs).2
  have clearHolding (given : Given) : Clear s.keys (holding configPath dryRun fun t => t.source.value? given) :=
    clear_holding configPath dryRun _ s
  have distinctHolding (given : Given) :
      Distinct (holding configPath dryRun fun t => t.source.value? given) :=
    distinct_holding configPath dryRun _
  have bareLed : at? s.keys (holding configPath dryRun fun t => t.source.value? bare) = none := by
    rw [at?_holding, adds.value?_bare]
  have fullLed : at? s.keys (holding configPath dryRun fun t => t.source.value? full) =
      some (s.source.valueOf text) := by
    rw [at?_holding, adds.value?_full]
  rw [keys] at clear clearGrown put clearHolding bareLed fullLed
  refine ⟨?top, ?tables, ?led, ?otherLed, ?frame⟩
  case top =>
    intro name differs
    have frame : grown.lookup name = surrounding.lookup name := by
      cases put with
      | through tables led frame deeper => exact frame name differs
    have same : (holding configPath dryRun fun t => t.source.value? full).lookup name =
        (holding configPath dryRun fun t => t.source.value? bare).lookup name := by
      refine lookup_holding_congr configPath dryRun _ fun t place => others ?_
      rintro rfl
      rcases place with rfl | there
      · have two : Setting.path.keys.length = 2 := by rw [keys]; rfl
        exact absurd two (by decide)
      · exact Setting.under_apart among member differs there
    rw [Table.lookup_over _ (distinctHolding bare), Table.lookup_over _ (distinctHolding full),
      Table.lookup_over _ clearGrown.distinct, Table.lookup_over _ clear.distinct, frame, same]
  case tables =>
    obtain ⟨inner, below⟩ := Table.lookup_of_at? put.at?_self
    obtain ⟨under, layered⟩ := Value.overlay_table (file.lookup header) inner
    obtain ⟨entries, found⟩ := Value.overlay_of_table under (clearHolding bare).2.1
    obtain ⟨above, given⟩ := Table.lookup_of_at? fullLed
    obtain ⟨otherEntries, otherFound⟩ := Value.overlay_table ((Table.over file surrounding).lookup header) above
    refine ⟨entries, otherEntries, ?_, ?_⟩
    · rw [Table.lookup_over _ (distinctHolding bare), Table.lookup_over _ clearGrown.distinct, below, layered,
        found]
    · rw [Table.lookup_over _ (distinctHolding full), given, otherFound]
  case led =>
    rw [Table.at?_over _ (clearHolding bare), Table.at?_over _ clearGrown, put.at?_self, bareLed]
    exact Value.overlay_of_upper _ plain
  case otherLed =>
    rw [Table.at?_over _ (clearHolding full), fullLed]
    exact Value.overlay_of_upper _ (s.source.isTable_valueOf text)
  case frame =>
    intro name differs
    have same : at? [header, name] (holding configPath dryRun fun t => t.source.value? full) =
        at? [header, name] (holding configPath dryRun fun t => t.source.value? bare) := by
      refine at?_holding_congr configPath dryRun _ among fun t _ named => others ?_
      rintro rfl
      exact differs named.symm
    rw [Table.at?_over _ ((clearHolding bare).beside name), Table.at?_over _ (clearGrown.beside name),
      put.at?_apart (Table.apart_beside differs header), Table.at?_over _ ((clearHolding full).beside name),
      Table.at?_over _ (clear.beside name), same]

/-- A text in a variable and the same text on the command line lead to the same fault, or to layered tables
that are the same but for the one setting. -/
theorem all_two_spellings (tree : Tree) (home : Path) {name : String} {before after : List (String × String)}
    (among : header ∈ Setting.sections) (keys : s.keys = [header, s.key]) (member : s ∈ Setting.under header)
    (named : s.isNamedBy name = true)
    (elsewhere : ∀ entry ∈ before ++ after, Environment.Elsewhere s.keys entry)
    (adds : Adds s.source text bare full) :
    (∃ fault, all tree home (before ++ (name, text) :: after) bare = .error fault ∧
        all tree home (before ++ after) full = .error fault) ∨
      ∃ table other, all tree home (before ++ (name, text) :: after) bare = .ok table ∧
        all tree home (before ++ after) full = .ok other ∧
        SameBut header s.key (Value.ofText text) (s.source.valueOf text) table other := by
  have leads : Environment.keysOf? name.toList = some s.keys := Setting.keysOf_of_isNamedBy named
  have changed : Environment.PutInto (Value.ofText text) s.keys (Environment.layer (before ++ after))
      (Environment.layer (before ++ (name, text) :: after)) :=
    Environment.putInto_layer leads (by simp [keys]) elsewhere
  have places : ∀ entry ∈ before ++ (name, text) :: after, ∀ others,
      Environment.keysOf? entry.1.toList = some others → others = s.keys ∨ Apart s.keys others := by
    intro entry among others found
    rcases List.mem_append.mp among with earlier | later
    · exact .inr (elsewhere entry (List.mem_append_left _ earlier) others found)
    · rcases List.mem_cons.mp later with rfl | behind
      · exact .inl (Option.some.inj (found.symm.trans leads))
      · exact .inr (elsewhere entry (List.mem_append_right _ behind) others found)
  have sameFile : fromFile tree home full = fromFile tree home bare := by
    rw [fromFile, fromFile, file?, file?, Given.last?, Given.last?, adds.all_eq s.source_flag_ne.1]
  cases read : fromFile tree home bare with
  | error fault =>
    refine .inl ⟨fault, ?_, ?_⟩
    · simp [all, read, bind, Except.bind]
    · simp [all, sameFile, read, bind, Except.bind]
  | ok file =>
    rcases changed.outcomes with ⟨fault, without, including⟩ | ⟨surrounding, grown, without, including, put⟩
    · refine .inl ⟨.environment fault, ?_, ?_⟩
      · simp [all, read, including, bind, Except.bind]
      · simp [all, sameFile, read, without, bind, Except.bind]
    · rcases fromCommandLine_adds adds with ⟨fault, onBare, onFull⟩ | ⟨configPath, dryRun, onBare, onFull⟩
      · refine .inl ⟨fault, ?_, ?_⟩
        · simp [all, read, including, onBare, bind, Except.bind]
        · simp [all, sameFile, read, without, onFull, bind, Except.bind]
      · have clear : Clear s.keys surrounding :=
          Environment.clear_layer (fun entry among others found => .inr (elsewhere entry among others found)) without
        have clearGrown : Clear s.keys grown := Environment.clear_layer places including
        refine .inr ⟨_, _, ?_, ?_, sameBut_over among keys member (Value.isTable_ofText text) clear clearGrown
          put adds file configPath dryRun⟩
        · simp [all, read, including, onBare, bind, Except.bind]
        · simp [all, sameFile, read, without, onFull, bind, Except.bind]

end Layers

namespace Setting

/-- No format has a single character for its name. -/
theorem name_ne_usualFormat (format : ReportFormat) (c : Char) :
    Value.text format.name ≠ usualFormat (.text (String.singleton c)) := by
  intro same
  unfold usualFormat at same
  split at same
  next spelled =>
    have chars := congrArg String.toList (Value.text.inj spelled)
    simp at chars
  next =>
    have chars := congrArg String.toList (Value.text.inj same)
    cases format <;> simp [ReportFormat.name] at chars

/-- A value that is no list and no text holds no formats, and neither does a text: its characters are none. -/
theorem no_formats {text : String} {settings : Settings} (notEmpty : text ≠ "") (noComma : ',' ∉ text.toList) :
    ¬ Kept .formats (Value.ofText text) settings := by
  rintro ⟨items, listed, values⟩
  rcases Value.ofText_cases text with ⟨b, read⟩ | ⟨n, read⟩ | ⟨x, read⟩ | ⟨comma, -⟩ | ⟨-, read⟩
  · simp [read, Settings.members] at listed
  · simp [read, Settings.members] at listed
  · simp [read, Settings.members] at listed
  · exact noComma comma
  · rw [read] at listed
    obtain rfl := Except.ok.inj listed
    obtain ⟨c, rest, chars⟩ : ∃ c rest, text.toList = c :: rest :=
      List.exists_cons_of_ne_nil fun empty => notEmpty (String.toList_eq_nil_iff.mp empty)
    have listed : (settings.output.formats.map fun format => Value.text format.name) =
        (text.toList.map fun c => .text (String.singleton c)).map usualFormat := Value.list.inj values
    rw [chars] at listed
    cases formats : settings.output.formats with
    | nil => simp [formats] at listed
    | cons format others =>
      have first : Value.text format.name = usualFormat (.text (String.singleton c)) := by
        simp only [formats, List.map_cons, List.cons.injEq] at listed
        exact listed.1
      exact name_ne_usualFormat format c first

/-- What one text makes of a setting that is a text is this text. -/
theorem valueOf_texts {s : Setting} (among : s ∈ texts) (text : String) : s.source.valueOf text = .text text := by
  simp only [texts, List.mem_cons, List.not_mem_nil, or_false] at among
  rcases among with rfl | rfl | rfl | rfl <;> rfl

/-- A text without commas spells no list. -/
theorem ofText_ne_list {text : String} (noComma : ',' ∉ text.toList) (items : List Value) :
    Value.ofText text ≠ .list items := by
  intro spelled
  rcases Value.ofText_cases text with ⟨b, read⟩ | ⟨n, read⟩ | ⟨x, read⟩ | ⟨comma, -⟩ | ⟨-, read⟩
  · cases read.symm.trans spelled
  · cases read.symm.trans spelled
  · cases read.symm.trans spelled
  · exact noComma comma
  · cases read.symm.trans spelled

variable {s : Setting} {name text : String} {before after : List (String × String)} {bare full : Given}
  {tree : Tree} {home : Path}

/-- Settings from a variable keep the value that it spells, and settings from the command line the value that
this makes of the text. -/
theorem kept_two_spellings (tree : Tree) (home : Path) (twofold : s ∈ texts ++ lists)
    (named : s.isNamedBy name = true)
    (elsewhere : ∀ entry ∈ before ++ after, Environment.Elsewhere s.keys entry)
    (adds : Adds s.source text bare full) :
    (∀ settings, Settings.resolve tree home (before ++ (name, text) :: after) bare = .ok settings →
        s.Kept (Value.ofText text) settings) ∧
      (∀ settings, Settings.resolve tree home (before ++ after) full = .ok settings →
        s.Kept (s.source.valueOf text) settings) ∧
      (Value.ofText text = s.source.valueOf text →
        Settings.resolve tree home (before ++ (name, text) :: after) bare =
          Settings.resolve tree home (before ++ after) full) := by
  obtain rfl | ⟨header, among, member, keys⟩ := s.path_or_section
  · exact absurd twofold (by decide)
  · rcases Layers.all_two_spellings tree home among keys member named elsewhere adds with
      ⟨fault, onVariable, onCommandLine⟩ | ⟨table, other, onVariable, onCommandLine, same⟩
    · simp [Settings.resolve, onVariable, onCommandLine, bind, Except.bind]
    · refine ⟨fun settings resolved => ?_, fun settings resolved => ?_, fun equal => ?_⟩
      · obtain ⟨sameTable, all, kept⟩ := kept_of_resolve resolved
        obtain rfl : table = sameTable := Except.ok.inj (onVariable.symm.trans all)
        simpa only [keys, same.led, Option.getD_some] using kept s
      · obtain ⟨sameTable, all, kept⟩ := kept_of_resolve resolved
        obtain rfl : other = sameTable := Except.ok.inj (onCommandLine.symm.trans all)
        simpa only [keys, same.otherLed, Option.getD_some] using kept s
      · rw [← equal] at same
        simp only [Settings.resolve, onVariable, onCommandLine, bind, Except.bind,
          Settings.ofTable_of_sameBut among same]

/-- One text, in a variable or on the command line, leads to the same settings exactly if it is read as a text.

This is so if the setting is no list and the text looks neither like a truth value nor like a number. Then both also
fail alike. A single format in a variable never leads to settings, for a text is taken letter by letter where a list
of formats is expected.

The layered tables are the same but for the one setting, which is neither at the top nor in two sections. So what is
resolved is the same if the two values are, and where both are resolved, each setting keeps the value that its layer
gives, which tells the values apart. -/
theorem resolve_two_spellings (twofold : s ∈ texts ++ lists)
    (named : s.isNamedBy name = true) (notEmpty : text ≠ "") (noComma : ',' ∉ text.toList)
    (elsewhere : ∀ entry ∈ before ++ after, Environment.Elsewhere s.keys entry)
    (adds : Adds s.source text bare full) :
    (s ∈ texts → Value.ofText text = .text text →
        Settings.resolve tree home (before ++ (name, text) :: after) bare =
          Settings.resolve tree home (before ++ after) full) ∧
      (∀ settings, Settings.resolve tree home (before ++ after) full = .ok settings →
        (Settings.resolve tree home (before ++ (name, text) :: after) bare = .ok settings ↔
          s ∈ texts ∧ Value.ofText text = .text text)) ∧
      (s = .formats → ∀ settings,
        Settings.resolve tree home (before ++ (name, text) :: after) bare ≠ .ok settings) := by
  obtain ⟨fromVariable, fromCommandLine, alike⟩ := kept_two_spellings tree home twofold named elsewhere adds
  have agree (textual : s ∈ texts) (same : Value.ofText text = .text text) :=
    alike (same.trans (valueOf_texts textual text).symm)
  refine ⟨agree, fun settings onCommandLine => ⟨fun onVariable => ?_, fun ⟨textual, same⟩ => ?_⟩, ?_⟩
  · have kept := fromVariable settings onVariable
    have expected := fromCommandLine settings onCommandLine
    by_cases formats : s = .formats
    · subst formats
      exact absurd kept (no_formats notEmpty noComma)
    · have same : Value.ofText text = s.source.valueOf text := by
        rw [Kept, if_neg formats] at kept expected
        exact kept.symm.trans expected
      rcases List.mem_append.mp twofold with textual | listing
      · exact ⟨textual, same.trans (valueOf_texts textual text)⟩
      · simp only [lists, List.mem_cons, List.not_mem_nil, or_false, formats, false_or] at listing
        subst listing
        exact absurd same (ofText_ne_list noComma _)
  · rwa [agree textual same]
  · rintro rfl settings onVariable
    exact no_formats notEmpty noComma (fromVariable settings onVariable)

/-- A directory that is named by a variable or on the command line. -/
theorem reports_two_spellings :
    let bare : Given := ⟨[some "IPen", none], []⟩
    let full : Given := ⟨[some "IPen", none], [("out-dir", .text "reports")]⟩
    scan.read ["IPen"] = .ok bare ∧ scan.read ["IPen", "--out-dir", "reports"] = .ok full ∧
      Settings.resolve .empty ⟨.root, ["home"]⟩
          [("VTABSCAN_OUTPUT__OUT_DIR", "reports"), ("VTABSCAN_LOGGING__QUIET", "true")] bare =
        Settings.resolve .empty ⟨.root, ["home"]⟩ [("VTABSCAN_LOGGING__QUIET", "true")] full := by
  intro bare full
  refine ⟨by rfl, by rfl, ?_⟩
  have named : Setting.outDir.isNamedBy "VTABSCAN_OUTPUT__OUT_DIR" = true := by decide +kernel
  have quiet : Setting.quiet.isNamedBy "VTABSCAN_LOGGING__QUIET" = true := by decide +kernel
  have elsewhere : ∀ entry ∈ [] ++ [("VTABSCAN_LOGGING__QUIET", "true")],
      Environment.Elsewhere Setting.outDir.keys entry := by
    intro entry member others leads
    obtain rfl := List.mem_singleton.mp member
    rw [keysOf_of_isNamedBy quiet] at leads
    exact Option.some.inj leads ▸ keys_apart (by decide)
  have adds : Adds Setting.outDir.source "reports" bare full := Adds.of_flag rfl rfl "reports"
  exact (resolve_two_spellings (by decide) named (by decide) (by decide) elsewhere adds).1 (by decide) (by rfl)

/-- One format in a variable: its first letter is no format. -/
theorem json_two_spellings :
    let bare : Given := ⟨[some "IPen", none], []⟩
    let full : Given := ⟨[some "IPen", none], [("output", .text "json")]⟩
    scan.read ["IPen"] = .ok bare ∧ scan.read ["IPen", "--output", "json"] = .ok full ∧
      (∃ settings, Settings.resolve .empty ⟨.root, ["home"]⟩ [] full = .ok settings ∧
        settings.output.formats = [.json]) ∧
      Settings.resolve .empty ⟨.root, ["home"]⟩ [("VTABSCAN_OUTPUT__FORMATS", "json")] bare =
        .error (.unsupportedFormat "j") := by
  intro bare full
  refine ⟨by rfl, by rfl, ⟨_, rfl, rfl⟩, by rfl⟩

end Setting

end ComLayout
