import ComLayout.Proofs.Header.ClassicCollecting
import ComLayout.Proofs.Lookup.RoundTrip

/-!
# Looking up what was generated

A lookup of an interface in a generated header finds the slots of its table, in order and with the lines on
which they were written, and nothing else: neither its virtual methods nor what belongs to its base or to
another interface of the header.
-/

namespace ComLayout

namespace Header

open Text

namespace ClassicHeader

variable (header : ClassicHeader)

/-- The interfaces that are written before another. -/
def above (d : ClassicInterface) : List ClassicInterface :=
  header.interfaces.takeWhile fun e => e.name ≠ d.name

/-- The line at which the lines of an interface begin. -/
def lineOf (d : ClassicInterface) : Nat := 1 + heightOfClassic (header.above d)

/-- The slot of an interface with this number, on the line on which it is written. -/
def slot (d : ClassicInterface) (i : Nat) (m : Identifier) : Method :=
  ⟨i, m.text, some ((header.lineOf d + 8 + d.virtuals.length + 2 * i : Nat) : Int), d.name.text,
    some (formatIid (String.ofList d.guid.text))⟩

/-- The vtable of an interface. -/
def vtable (d : ClassicInterface) (source : String) : Vtable :=
  ⟨d.name.text, d.methods.mapIdx (header.slot d), some source⟩

/-- The declaration of an interface in the text of the header. -/
def declared (d : ClassicInterface) : Declaration := d.declaredAt (textOfClassic (header.above d)).length

/-- A name that is that of an interface up to case is declared by it. -/
theorem firstDeclaration?_eq (request : Identifier) {d : ClassicInterface} (listed : d ∈ header.interfaces)
    (same : lowerString request.text = lowerString d.name.text) :
    firstDeclaration? request.text header.text = some (header.declared d) := by
  obtain ⟨after, split, others⟩ := split_above ClassicInterface.name header.distinct listed
  have otherwise : ∀ e ∈ header.above d, lowerString request.text ≠ lowerString e.name.text := by
    intro e member alike
    exact others e member (alike.symm.trans same)
  rw [text, split]
  exact firstDeclaration?_classic request (header.above d) after d same otherwise

/-- The slots that the declaration of an interface lists are those of its table. -/
theorem ownMethods_eq {d : ClassicInterface} (listed : d ∈ header.interfaces) :
    Lookup.ownMethods header.text (header.declared d) 0 = d.methods.mapIdx (header.slot d) := by
  obtain ⟨after, split, _⟩ := split_above ClassicInterface.name header.distinct listed
  have pieces : header.text = textOfClassic (header.above d) ++ (d.text ++ textOfClassic after) := by
    rw [text, split, textOfClassic, List.flatMap_append, List.flatMap_cons]
    rfl
  have scanned := scanMethods_classic d (textOfClassic (header.above d)) (textOfClassic after)
  rw [← pieces, textOfClassic_lineFeeds] at scanned
  have found : scanMethods header.text (header.declared d).stop (header.declared d).form.grammar
      (header.declared d).name =
        d.methods.mapIdx fun i m => (m.text, header.lineOf d + 8 + d.virtuals.length + 2 * i) := scanned
  rw [Lookup.ownMethods, found, List.mapIdx_mapIdx]
  apply List.mapIdx_eq_mapIdx_iff.mpr
  intro i inside
  simp only [Function.comp_apply, Nat.zero_add]
  rfl

end ClassicHeader

end Header

namespace Lookup

open Header Text

variable {tree : Tree} {pattern : String} {place : Location}

/-- A lookup in the file to which a generated header was written finds the slots of the table and nothing else.

The interface may be requested in any letter case. The slots are those of its table, in order, each with the line on
which it stands; what the class before the table declares is not among them.

The declaration that is located is the one of the interface, since no block before it declares the name. A generated
interface derives from nothing, so its own methods make up the vtable. Their search starts at the name of the struct,
which is found behind the class, and passes over all that is no slot until the struct ends. -/
theorem find_generated (header : ClassicHeader) (leads : LeadsToFile tree pattern place)
    (holds : tree.contents? place = some (String.ofList header.text).toUTF8) (recurse : Bool)
    (d : ClassicInterface) (listed : d ∈ header.interfaces) (request : Identifier)
    (same : lowerString request.text = lowerString d.name.text) :
    (find tree request.text pattern recurse Filter.none).1 =
      .ok (header.vtable d (Path.ofString pattern).toString) := by
  have text : fileText tree place = header.text :=
    fileText_written header.text_isAscii header.no_return holds
  have named : request.text ≠ "" := request.text_ne_empty
  have outcome := find_in_file leads request.text recurse named
  rw [text, header.firstDeclaration?_eq request listed same] at outcome
  have slots : slotsInFile tree pattern place request.text (header.declared d) =
      .ok (d.methods.mapIdx (header.slot d)) := by
    have classic : (header.declared d).form = .classic := rfl
    rw [slotsInFile, text, slotsOf, classic]
    exact congrArg Except.ok (header.ownMethods_eq listed)
  rw [outcome]
  simp only [slots]
  rfl

/-- An interface of whose virtual methods one is named like the struct. -/
def brush : ClassicInterface :=
  ⟨⟨"IBrush", by decide, by decide, by decide⟩, repeated 'd' (by decide),
    ⟨"IDispatch", by decide, by decide, by decide⟩,
    [⟨"Paint", by decide, by decide, by decide⟩, ⟨"IBrushVtbl", by decide, by decide, by decide⟩],
    [⟨"QueryInterface", by decide, by decide, by decide⟩, ⟨"Paint", by decide, by decide, by decide⟩],
    by decide +kernel⟩

/-- An interface whose name begins with that of another one. -/
def brushEx : ClassicInterface :=
  ⟨⟨"IBrushEx", by decide, by decide, by decide⟩, repeated 'e' (by decide),
    ⟨"IBrush", by decide, by decide, by decide⟩, [], [⟨"Erase", by decide, by decide, by decide⟩],
    by decide +kernel⟩

/-- A generated header of two interfaces. -/
def brushHeader : ClassicHeader where
  interfaces := [brushEx, brush]
  distinct := by decide +kernel

/-- A tree with that header alone. -/
def brushTree : Tree := ⟨[], [(["brush.h"], (String.ofList brushHeader.text).toUTF8)], by simp [isEntryName]⟩

/-- The brush is found by its name in small letters, behind the interface whose name begins like it. -/
theorem brush_vtable_generated :
    (find brushTree "ibrush" "brush.h" true Filter.none).1 = .ok (brushHeader.vtable brush "brush.h") := by
  have leads : LeadsToFile brushTree "brush.h" ["brush.h"] := ⟨by decide +kernel, by decide +kernel⟩
  have holds : brushTree.contents? ["brush.h"] = some (String.ofList brushHeader.text).toUTF8 := by rfl
  have listed : brush ∈ brushHeader.interfaces := by simp [brushHeader]
  exact find_generated brushHeader leads holds true brush listed ⟨"ibrush", by decide, by decide, by decide⟩
    (by decide +kernel)

end Lookup

end ComLayout
