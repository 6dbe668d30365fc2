import ComLayout.Proofs.Report.JsonReading
import ComLayout.Proofs.Vtable.Counting
import ComLayout.Report.Document
import ComLayout.Text.Split

/-!
# The contents of a JSON report

A JSON report is a text in ASCII from which everything that was reported can be taken again: the pattern, the
vtable with all its slots, and the summary, whose interfaces stand in the order in which they first occur. Only
one line of it depends on the time at which it is written, so reports that agree on all other lines have the same
contents.
-/

namespace ComLayout

open Text

namespace Json

section Characters

/-- A character that stands within a line and is written as it is. -/
def IsVisible (c : Char) : Prop := ' ' ≤ c ∧ c ≤ '~'

instance : DecidablePred IsVisible := fun c => inferInstanceAs (Decidable (' ' ≤ c ∧ c ≤ '~'))

/-- Digits in base sixteen are visible. -/
theorem visible_hexDigits (width n : Nat) : ∀ c ∈ hexDigits width n, IsVisible c := by
  have digit : ∀ d < 16, IsVisible (hexDigit d) := by decide
  induction width generalizing n with
  | zero => simp [hexDigits]
  | succ width inductionHypothesis =>
    rw [hexDigits, List.forall_mem_append]
    exact ⟨inductionHypothesis (n / 16), by simpa using digit (n % 16) (by omega)⟩

/-- The escape for a unit is visible. -/
theorem visible_unitEscape (unit : Nat) : ∀ c ∈ unitEscape unit, IsVisible c := by
  rw [unitEscape, List.forall_mem_cons, List.forall_mem_cons]
  exact ⟨by decide, by decide, visible_hexDigits 4 unit⟩

/-- The written form of a character is visible. Five characters besides the quote and the backslash have short
escapes of their own. -/
theorem visible_written (c : Char) : ∀ d ∈ written c, IsVisible d := by
  unfold written
  split
  case isTrue special =>
    simp only [Bool.or_eq_true, beq_iff_eq] at special
    rcases special with rfl | rfl <;> decide
  case isFalse =>
    iterate 5
      split
      case isTrue => decide
    split
    case isTrue visible =>
      rw [List.forall_mem_singleton]
      exact visible
    case isFalse =>
      rw [escape]
      split
      · exact visible_unitEscape _
      · rw [List.forall_mem_append]
        exact ⟨visible_unitEscape _, visible_unitEscape _⟩

/-- The written form of a text is visible, whatever the text holds. -/
theorem visible_quote (s : List Char) : ∀ c ∈ quote s, IsVisible c := by
  have inside : ∀ c ∈ s.flatMap written, IsVisible c := by
    simp only [List.mem_flatMap]
    rintro c ⟨d, -, mem⟩
    exact visible_written d c mem
  rw [quote, List.cons_append, List.forall_mem_cons, List.forall_mem_append]
  exact ⟨by decide, inside, by decide⟩

/-- The written form of an integer is visible. -/
theorem visible_toString (n : Int) : ∀ c ∈ (toString n).toList, IsVisible c := by
  intro c mem
  rcases Number.mem_toString_int mem with rfl | digit
  · decide
  · simp only [Char.isDigit, Bool.and_eq_true, decide_eq_true_eq] at digit
    exact ⟨Nat.le_trans (by decide : 0x20 ≤ 0x30) digit.1, Nat.le_trans digit.2 (by decide : 0x39 ≤ 0x7E)⟩

/-- A line break, or a character that stands within a line. -/
def IsLined (c : Char) : Prop := c = '\n' ∨ IsVisible c

/-- Members between brackets are written over lines. -/
theorem lined_enclose {left right : Char} (opening : IsVisible left) (closing : IsVisible right) (level : Nat)
    {members : List (List Char)} (inside : ∀ member ∈ members, ∀ c ∈ member, IsLined c) :
    ∀ c ∈ enclose left right level members, IsLined c := by
  have breaks (level : Nat) : ∀ c ∈ breakAt level, IsLined c := by
    rw [breakAt, List.forall_mem_cons]
    exact ⟨.inl rfl, fun c mem => List.eq_of_mem_replicate mem ▸ .inr (by decide)⟩
  have joined : ∀ c ∈ List.intercalate (',' :: breakAt (level + 1)) members, IsLined c := by
    induction members with
    | nil => simp
    | cons first rest inductionHypothesis =>
      obtain ⟨ahead, behind⟩ := List.forall_mem_cons.mp inside
      cases rest with
      | nil => simpa using ahead
      | cons second rest =>
        rw [List.intercalate_cons_cons, List.forall_mem_append, List.forall_mem_append, List.forall_mem_cons]
        exact ⟨⟨ahead, .inr (by decide), breaks (level + 1)⟩, inductionHypothesis behind⟩
  rw [enclose]
  split
  · simp [IsLined, opening, closing]
  · simp only [List.cons_append, List.append_assoc, List.forall_mem_cons, List.forall_mem_append]
    exact ⟨.inr opening, breaks (level + 1), joined, breaks level, .inr closing, by simp⟩

/-- The right bracket stands last. -/
theorem exists_enclose (left right : Char) (level : Nat) (members : List (List Char)) :
    ∃ front, enclose left right level members = front ++ [right] := by
  rw [enclose]
  split
  · exact ⟨[left], rfl⟩
  · exact ⟨_, rfl⟩

mutual

/-- A value is written over lines of visible characters. -/
theorem lined_renderAt (level : Nat) (value : Json) : ∀ c ∈ renderAt level value, IsLined c := by
  cases value with
  | null =>
    rw [renderAt]
    exact fun c mem => .inr ((by decide : ∀ d ∈ "null".toList, IsVisible d) c mem)
  | int n =>
    rw [renderAt]
    exact fun c mem => .inr (visible_toString n c mem)
  | text s =>
    rw [renderAt]
    exact fun c mem => .inr (visible_quote s c mem)
  | list items =>
    rw [renderAt]
    exact lined_enclose (by decide) (by decide) level (lined_renderItems (level + 1) items)
  | object entries =>
    rw [renderAt]
    exact lined_enclose (by decide) (by decide) level (lined_renderEntries (level + 1) entries)

/-- Items are written over lines of visible characters. -/
theorem lined_renderItems (level : Nat) (items : List Json) :
    ∀ member ∈ renderItems level items, ∀ c ∈ member, IsLined c := by
  cases items with
  | nil => simp [renderItems]
  | cons item rest =>
    rw [renderItems, List.forall_mem_cons]
    exact ⟨lined_renderAt level item, lined_renderItems level rest⟩

/-- Entries are written over lines of visible characters. -/
theorem lined_renderEntries (level : Nat) (entries : List (List Char × Json)) :
    ∀ member ∈ renderEntries level entries, ∀ c ∈ member, IsLined c := by
  cases entries with
  | nil => simp [renderEntries]
  | cons entry rest =>
    obtain ⟨name, value⟩ := entry
    rw [renderEntries, List.forall_mem_cons, List.forall_mem_append, List.forall_mem_cons, List.forall_mem_cons]
    exact ⟨⟨fun c mem => .inr (visible_quote name c mem), .inr (by decide), .inr (by decide),
      lined_renderAt level value⟩, lined_renderEntries level rest⟩

end

end Characters

section Fields

/-- A text that is expected. -/
def text? : Json → Option String
  | .text s => some (String.ofList s)
  | _ => none

/-- An integer that is expected. -/
def int? : Json → Option Int
  | .int n => some n
  | _ => none

/-- A number of things that is expected. -/
def nat? : Json → Option Nat
  | .int (.ofNat n) => some n
  | _ => none

/-- What is expected, or null where there is none. -/
def orNull? {α : Type} (read : Json → Option α) : Json → Option (Option α)
  | .null => some none
  | value => (read value).map some

/-- A list of what is expected. -/
def listOf? {α : Type} (read : Json → Option α) : Json → Option (List α)
  | .list items => items.mapM read
  | _ => none

/-- An object of what is expected, with any names. -/
def entriesOf? {α : Type} (read : Json → Option α) : Json → Option (List (String × α))
  | .object entries => entries.mapM fun entry => (read entry.2).map (String.ofList entry.1, ·)
  | _ => none

/-- The values of an object that has exactly these names. -/
def valuesOf? (names : List String) : Json → Option (List Json)
  | .object entries => if entries.map (·.1) = names.map String.toList then some (entries.map (·.2)) else none
  | _ => none

theorem orNull?_ofText? (s : Option String) : orNull? text? (ofText? s) = some s := by
  cases s <;> simp [ofText?, orNull?, text?]

theorem orNull?_ofInt? (n : Option Int) : orNull? int? (ofInt? n) = some n := by
  cases n <;> rfl

end Fields

end Json

namespace Report

open Json

/-- What a JSON report holds. -/
structure Contents where
  tool : String
  time : String
  pattern : Option String
  vtable : Vtable
  summary : Summary

/-- The slot that an object with five fields describes. -/
def methodOf? (value : Json) : Option Method := do
  let [index, name, line, interface, iid] ← valuesOf? ["index", "name", "line", "interface", "iid"] value | none
  return ⟨← int? index, ← text? name, ← orNull? int? line, ← text? interface, ← orNull? text? iid⟩

/-- The summary that an object describes. -/
def summaryOf? (value : Json) : Option Summary := do
  let [total, own, inherited, byInterface] ←
    valuesOf? ["total_methods", "own_methods", "inherited_methods", "by_interface"] value | none
  return ⟨← nat? total, ← nat? own, ← int? inherited, ← entriesOf? nat? byInterface⟩

/-- What a report in JSON holds. -/
def contentsOf? (value : Json) : Option Contents := do
  let [scan, interface, source, methods, summary] ←
    valuesOf? ["scan_metadata", "interface", "source_path", "methods", "summary"] value | none
  let [tool, time, pattern] ← valuesOf? ["tool", "timestamp", "pattern"] scan | none
  let vtable := ⟨← text? interface, ← listOf? methodOf? methods, ← orNull? text? source⟩
  return ⟨← text? tool, ← text? time, ← orNull? text? pattern, vtable, ← summaryOf? summary⟩

/-- The values of an object are those it was put together from. -/
theorem valuesOf?_fields (entries : List (String × Json)) :
    valuesOf? (entries.map (·.1)) (fields entries) = some (entries.map (·.2)) := by
  simp [valuesOf?, fields]

/-- The object for a slot describes it. -/
theorem methodOf?_methodObject (m : Method) : methodOf? (methodObject m) = some m := by
  have values : valuesOf? ["index", "name", "line", "interface", "iid"] (methodObject m) =
      some [.int m.index, .text m.name.toList, .ofInt? m.line, .text m.interface.toList, .ofText? m.iid] :=
    valuesOf?_fields _
  simp [methodOf?, values, int?, text?, orNull?_ofInt?, orNull?_ofText?]

/-- The object for a summary describes it. -/
theorem summaryOf?_summaryObject (s : Summary) : summaryOf? (summaryObject s) = some s := by
  have counted : entriesOf? nat? (fields (s.byInterface.map fun entry => (entry.1, .int entry.2))) =
      some s.byInterface := by
    rw [fields, List.map_map, entriesOf?]
    exact mapM_map fun entry _ => by simp [nat?]
  have values : valuesOf? ["total_methods", "own_methods", "inherited_methods", "by_interface"] (summaryObject s) =
      some [.int s.total, .int s.own, .int s.inherited,
        fields (s.byInterface.map fun entry => (entry.1, .int entry.2))] :=
    valuesOf?_fields _
  simp [summaryOf?, values, nat?, int?, counted]

/-- The document for a vtable holds what it was put together from. -/
theorem contentsOf?_document (vtable : Vtable) (pattern : Option String) (time : String) :
    contentsOf? (document vtable pattern time) =
      some ⟨"vtabscan", time, pattern, vtable, Summary.ofVtable vtable⟩ := by
  have slots : listOf? methodOf? (.list (vtable.methods.map methodObject)) = some vtable.methods :=
    mapM_map fun m _ => methodOf?_methodObject m
  have values : valuesOf? ["scan_metadata", "interface", "source_path", "methods", "summary"]
        (document vtable pattern time) =
      some [fields [("tool", .text "vtabscan".toList), ("timestamp", .text time.toList),
          ("pattern", .ofText? pattern)],
        .text vtable.interface.toList, .ofText? vtable.source, .list (vtable.methods.map methodObject),
        summaryObject (Summary.ofVtable vtable)] :=
    valuesOf?_fields _
  have scan : valuesOf? ["tool", "timestamp", "pattern"]
        (fields [("tool", .text "vtabscan".toList), ("timestamp", .text time.toList), ("pattern", .ofText? pattern)]) =
      some [.text "vtabscan".toList, .text time.toList, .ofText? pattern] :=
    valuesOf?_fields _
  simp only [contentsOf?, values, scan, text?, slots, orNull?_ofText?, summaryOf?_summaryObject, Option.bind_eq_bind,
    Option.bind_some, Option.pure_def, String.ofList_toList]

section Lines

/-- The line of a report on which its time stands. -/
def timeLine (time : String) : List Char :=
  [' ', ' ', ' ', ' '] ++ (quote "timestamp".toList ++ (':' :: ' ' :: (quote time.toList ++ [','])))

/-- No line break is written into a text. -/
theorem lineFeed_not_mem_quote (s : List Char) : '\n' ∉ quote s :=
  fun mem => absurd (visible_quote s _ mem) (by decide)

/-- The time of a report stands alone on its fourth line. -/
theorem exists_split_json (vtable : Vtable) (pattern : Option String) : ∃ a b c behind, ∀ time,
    split '\n' (json vtable pattern time) = a :: b :: c :: timeLine time :: behind := by
  let others : List (List Char × Json) := [
    ("interface".toList, .text vtable.interface.toList), ("source_path".toList, .ofText? vtable.source),
    ("methods".toList, .list (vtable.methods.map methodObject)),
    ("summary".toList, summaryObject (Summary.ofVtable vtable))]
  let scanLine := [' ', ' '] ++ (quote "scan_metadata".toList ++ [':', ' ', '\x7b'])
  let toolLine := [' ', ' ', ' ', ' '] ++ (quote "tool".toList ++ (':' :: ' ' :: (quote "vtabscan".toList ++ [','])))
  let behind := [' ', ' ', ' ', ' '] ++ (quote "pattern".toList ++ (':' :: ' ' :: (renderAt 2 (.ofText? pattern) ++
    (breakAt 1 ++ ('\x7d' :: ',' :: (breakAt 1 ++ (List.intercalate (',' :: breakAt 1) (renderEntries 1 others) ++
      (breakAt 0 ++ ['\x7d', '\n']))))))))
  have shape (time : String) : json vtable pattern time =
      ['\x7b'] ++ '\n' :: (scanLine ++ '\n' :: (toolLine ++ '\n' :: (timeLine time ++ '\n' :: behind))) := by
    simp only [json, document, fields, List.map_cons, List.map_nil, render, renderAt, renderEntries, enclose,
      List.isEmpty_cons, Bool.false_eq_true, if_false, List.intercalate_cons_cons, List.intercalate_singleton,
      List.append_assoc, List.cons_append, List.nil_append, timeLine, others, scanLine, toolLine, behind]
    rfl
  have scan : '\n' ∉ scanLine := by simp [scanLine, lineFeed_not_mem_quote]
  have tool : '\n' ∉ toolLine := by simp [toolLine, lineFeed_not_mem_quote]
  have stamp (time : String) : '\n' ∉ timeLine time := by simp [timeLine, lineFeed_not_mem_quote]
  refine ⟨['\x7b'], scanLine, toolLine, split '\n' behind, fun time => ?_⟩
  rw [shape, split_append _ _ _ (by decide), split_append _ _ _ scan, split_append _ _ _ tool,
    split_append _ _ _ (stamp time)]

/-- Reports that agree on all lines but the one of their times are the same when written at the same time. -/
theorem json_eq_of_lines {vtable other : Vtable} {pattern otherPattern : Option String} {time otherTime : String}
    (same : (split '\n' (json other otherPattern otherTime)).eraseIdx 3 =
      (split '\n' (json vtable pattern time)).eraseIdx 3) : json other otherPattern time = json vtable pattern time := by
  obtain ⟨a, b, c, behind, lines⟩ := exists_split_json vtable pattern
  obtain ⟨a', b', c', behind', lines'⟩ := exists_split_json other otherPattern
  rw [lines, lines'] at same
  obtain ⟨rfl, rfl, rfl, rfl⟩ : a' = a ∧ b' = b ∧ c' = c ∧ behind' = behind := by simpa using same
  rw [← intercalate_split '\n' (json other otherPattern time), lines', ← lines, intercalate_split]

end Lines

/-- A report can be read as the document that it was written from.

It is written in ASCII and ends with one line end. The document holds the pattern, the vtable and its summary, in
which the interfaces stand in the order of their first slots. Its fourth line depends on nothing but the time, and
whatever agrees with it on all others has the same vtable and the same pattern. Integers are taken to be written out
whatever their size, as those that count slots and lines are; of the numbers with more digits than an integer may
have, which a vtable could be made of by hand, nothing is told here.

The reader takes back each value that is written, by induction on the values: a text character by character, where
what is escaped is read as its code points, and members up to the mark that closes them. No line feed stands within a
text, so the lines of a report are those of its layout, and the time stands on one of them. -/
theorem read_json (vtable : Vtable) (pattern : Option String) (time : String) :
    (∀ c ∈ json vtable pattern time, c.toNat < 0x80) ∧
      (∃ front, json vtable pattern time = front ++ ['\x7d', '\n']) ∧
      (∃ value, read? (json vtable pattern time) = some value ∧
        contentsOf? value = some ⟨"vtabscan", time, pattern, vtable, Summary.ofVtable vtable⟩) ∧
      (Summary.ofVtable vtable).byInterface = (vtable.methods.map (·.interface)).eraseDups.map (fun name =>
        (name, (vtable.methods.map (·.interface)).count name)) ∧
      (split '\n' (json vtable pattern time))[3]? = some (timeLine time) ∧
      ∀ other otherPattern otherTime,
        (split '\n' (json other otherPattern otherTime)).eraseIdx 3 =
            (split '\n' (json vtable pattern time)).eraseIdx 3 →
          other = vtable ∧ otherPattern = pattern := by
  have decoded (vtable : Vtable) (pattern : Option String) :
      read? (json vtable pattern time) = some (document vtable pattern time) :=
    read?_render (document vtable pattern time) (by decide)
  refine ⟨?_, ?_, ⟨_, decoded vtable pattern, contentsOf?_document vtable pattern time⟩, Summary.counts_eq _, ?_, ?_⟩
  · have lined : ∀ c ∈ json vtable pattern time, IsLined c := by
      rw [json, List.forall_mem_append]
      exact ⟨lined_renderAt 0 _, by simp [IsLined]⟩
    intro c mem
    rcases lined c mem with rfl | visible
    · decide
    · exact Nat.lt_of_le_of_lt (show c.toNat ≤ 0x7E from visible.2) (by decide)
  · obtain ⟨front, closed⟩ := exists_enclose '\x7b' '\x7d' 0 (renderEntries 1 _)
    refine ⟨front, ?_⟩
    rw [json, render, document, fields, renderAt, closed]
    simp
  · obtain ⟨a, b, c, behind, lines⟩ := exists_split_json vtable pattern
    rw [lines]
    rfl
  · intro other otherPattern otherTime same
    have values : document other otherPattern time = document vtable pattern time := by
      rw [← Option.some_inj, ← decoded, ← decoded, json_eq_of_lines same]
    have contents := contentsOf?_document other otherPattern time
    rw [values, contentsOf?_document] at contents
    simp only [Option.some.injEq, Contents.mk.injEq] at contents
    exact ⟨contents.2.2.2.1.symm, contents.2.2.1.symm⟩

end Report

end ComLayout
