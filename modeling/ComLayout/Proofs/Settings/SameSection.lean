import ComLayout.Proofs.Settings.Places

/-!
# Tables that differ in one value of a section

Two tables may be the same but for one value of a section, which both have. If that value is the same too,
they hold the same everywhere, though perhaps not in the same order. Cutting a table into settings does not
look at the order, so both are cut into the same settings or fail alike.
-/

namespace ComLayout

open Table (at? within)

/-- Two tables with the same section, which hold different values under one key there and are the same
everywhere else. -/
structure SameBut (header key : String) (value otherValue : Value) (table other : Table) : Prop where
  top : ∀ name, name ≠ header → table.lookup name = other.lookup name
  tables : ∃ inner otherInner, table.lookup header = some (.table inner) ∧
    other.lookup header = some (.table otherInner)
  led : at? [header, key] table = some value
  otherLed : at? [header, key] other = some otherValue
  frame : ∀ name, name ≠ key → at? [header, name] table = at? [header, name] other

namespace Settings

/-- Two cuts that are the same fault, or entries that hold the same. -/
def Alike : (cut other : Except SettingsFault Table) → Prop
  | .error fault, .error other => fault = other
  | .ok entries, .ok others => ∀ key, entries.lookup key = others.lookup key
  | _, _ => False

/-- What goes on in the same way from alike cuts comes to the same. -/
theorem Alike.bind {α : Type} {cut other : Except SettingsFault Table} (alike : Alike cut other)
    {onward otherOnward : Table → Except SettingsFault α}
    (same : ∀ entries others, (∀ key, entries.lookup key = others.lookup key) →
      onward entries = otherOnward others) : cut >>= onward = other >>= otherOnward := by
  rcases cut with fault | entries <;> rcases other with otherFault | others
  · exact congrArg Except.error alike
  · exact alike.elim
  · exact alike.elim
  · exact same entries others alike

/-- Whether a table holds known keys only depends on what it holds. -/
theorem all_known {entries : Table} {known : List String} :
    (entries.all fun entry => known.contains entry.1) = true ↔
      ∀ key, entries.lookup key ≠ none → known.contains key = true := by
  rw [List.all_eq_true]
  constructor
  · intro all key found
    obtain ⟨value, found⟩ := Option.ne_none_iff_exists'.mp found
    obtain ⟨before, after, rfl, -⟩ := List.lookup_eq_some_iff.mp found
    exact all (key, value) (by simp)
  · intro all entry member
    refine all entry.1 fun absent => ?_
    have differs := List.lookup_eq_none_iff.mp absent entry member
    simp at differs

/-- Tables that are the same but for one value, and hold the same value there, are cut alike. -/
theorem alike_entriesOf {header key : String} {value : Value} {table other : Table}
    (same : SameBut header key value value table other) (name : String) (known : List String) :
    Alike (entriesOf table name known) (entriesOf other name known) := by
  by_cases here : name = header
  · subst here
    obtain ⟨inner, otherInner, found, otherFound⟩ := same.tables
    have lookups : ∀ key, inner.lookup key = otherInner.lookup key := by
      intro name
      by_cases led : name = key
      · have values := same.led.trans same.otherLed.symm
        simpa only [at?, found, otherFound, within, ← led] using values
      · simpa only [at?, found, otherFound, within] using same.frame name led
    have all : (inner.all fun entry => known.contains entry.1) =
        otherInner.all fun entry => known.contains entry.1 := by
      rw [Bool.eq_iff_iff, all_known, all_known]
      simp only [lookups]
    simp only [entriesOf, found, otherFound, all]
    split
    next => exact lookups
    next => rfl
  · have lookups : table.lookup name = other.lookup name := same.top name here
    unfold entriesOf
    rw [lookups]
    split
    next => exact fun key => rfl
    next =>
      split
      next => exact fun key => rfl
      next => rfl
    next => rfl

/-- Such tables are cut into the same settings, or fail alike. -/
theorem ofTable_of_sameBut {header key : String} {value : Value} {table other : Table}
    (among : header ∈ Setting.sections) (same : SameBut header key value value table other) :
    ofTable table = ofTable other := by
  have top : ∀ name, name ∉ Setting.sections → table.lookup name = other.lookup name :=
    fun name outside => same.top name fun here => outside (here ▸ among)
  refine (alike_entriesOf same "lookup" _).bind fun lookup otherLookup sameLookup => ?_
  refine (alike_entriesOf same "files" _).bind fun files otherFiles sameFiles => ?_
  refine (alike_entriesOf same "output" _).bind fun output otherOutput sameOutput => ?_
  refine (alike_entriesOf same "logging" _).bind fun logging otherLogging sameLogging => ?_
  simp only [valueOr, sameLookup, sameFiles, sameOutput, sameLogging, top "path" (by decide),
    top "config_path" (by decide), top "dry_run" (by decide)]

end Settings

end ComLayout
