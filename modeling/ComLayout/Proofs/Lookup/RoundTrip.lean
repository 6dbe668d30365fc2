import ComLayout.Proofs.Header.Collecting
import ComLayout.Proofs.Header.Locating
import ComLayout.Proofs.Lookup.RequestWalk
import Mathlib.Data.List.Nodup

/-!
# Looking up what was written

A lookup of an interface in a header that was written from a list of interfaces finds what was written: the
slots of the root, and then the methods of each interface from the most distant base down to the requested
one, with the lines on which they were written. It does so wherever the bases lead to the root through no
more interfaces than the limit, in whichever order the interfaces stand. Otherwise it reports a cycle.
-/

namespace ComLayout

namespace Header

open Text

/-- The slots of the methods that an interface lists, where its lines begin at a line. -/
def InterfaceSource.slots (d : InterfaceSource) (line : Nat) : List Slot :=
  d.methods.mapIdx fun i m =>
    ⟨m.name.text, some ((line + 2 + 2 * i : Nat) : Int), d.name.text,
      some (formatIid (String.ofList d.guid.text))⟩

/-- The number of lines of some interfaces. -/
def heightOfInterfaces : List InterfaceSource → Nat
  | [] => 0
  | d :: rest => d.height + heightOfInterfaces rest

namespace HeaderSource

/-- The interfaces that are written before another. -/
def above (header : HeaderSource) (d : InterfaceSource) : List InterfaceSource :=
  header.interfaces.takeWhile fun e => e.name ≠ d.name

/-- The line at which the lines of an interface begin. -/
def lineOf (header : HeaderSource) (d : InterfaceSource) : Nat :=
  1 + heightOfInterfaces (header.above d)

/-- An interface, its base, the base of that and so on up to one whose base is the root. -/
inductive Ancestry (header : HeaderSource) : InterfaceSource → List InterfaceSource → Prop where
  | root {d : InterfaceSource} (listed : d ∈ header.interfaces)
      (base : d.base.text = Vtable.rootInterface) : Ancestry header d [d]
  | derived {d e : InterfaceSource} {bases : List InterfaceSource} (listed : d ∈ header.interfaces)
      (base : lowerString d.base.text = lowerString e.name.text) (inherits : Ancestry header e bases) :
      Ancestry header d (d :: bases)

/-- The vtable of the first interface of an ancestry. -/
def vtable (header : HeaderSource) (d : InterfaceSource) (ancestry : List InterfaceSource)
    (source : String) : Vtable :=
  ⟨d.name.text, (Vtable.rootMethods.map Method.slot ++
    ancestry.reverse.flatMap fun e => e.slots (header.lineOf e)).mapIdx Slot.numbered, some source⟩

/-- The declaration of an interface in the text of the header. -/
def declared (header : HeaderSource) (d : InterfaceSource) : Declaration :=
  d.declaredAt (textOfInterfaces (header.above d)).length

end HeaderSource

/-- The text of some interfaces has as many lines as they have. -/
theorem textOfInterfaces_lineFeeds (interfaces : List InterfaceSource) :
    lineFeeds (textOfInterfaces interfaces) = heightOfInterfaces interfaces := by
  induction interfaces with
  | nil => rfl
  | cons d rest inductionHypothesis =>
    rw [textOfInterfaces, List.flatMap_cons, lineFeeds_append, d.text_lineFeeds, heightOfInterfaces,
      ← inductionHypothesis]
    rfl

namespace HeaderSource

variable (header : HeaderSource)

/-- A header holds an interface behind those above it, and the names of these are others. -/
theorem split_at {d : InterfaceSource} (listed : d ∈ header.interfaces) :
    ∃ after, header.interfaces = header.above d ++ d :: after ∧
      ∀ e ∈ header.above d, lowerString e.name.text ≠ lowerString d.name.text :=
  split_above InterfaceSource.name header.distinct listed

/-- A name that is that of an interface up to case is declared by it. -/
theorem firstDeclaration?_eq (request : Identifier) {d : InterfaceSource} (listed : d ∈ header.interfaces)
    (same : lowerString request.text = lowerString d.name.text) :
    firstDeclaration? request.text header.text = some (header.declared d) := by
  obtain ⟨after, split, others⟩ := header.split_at listed
  have otherwise : ∀ e ∈ header.above d, lowerString request.text ≠ lowerString e.name.text := by
    intro e member alike
    exact others e member (alike.symm.trans same)
  rw [text, split]
  exact firstDeclaration?_written request (header.above d) after d same otherwise

/-- The slots that the declaration of an interface lists are those that were written. -/
theorem ownSlots_eq {d : InterfaceSource} (listed : d ∈ header.interfaces) :
    Lookup.ownSlots header.text (header.declared d) = d.slots (header.lineOf d) := by
  obtain ⟨after, split, _⟩ := header.split_at listed
  have pieces : header.text = textOfInterfaces (header.above d) ++ (d.text ++ textOfInterfaces after) := by
    rw [text, split, textOfInterfaces, List.flatMap_append, List.flatMap_cons]
    rfl
  have scanned := scanMethods_written (textOfInterfaces (header.above d)) (textOfInterfaces after) d
  rw [← pieces, textOfInterfaces_lineFeeds] at scanned
  have listed : scanMethods header.text (header.declared d).stop (header.declared d).form.grammar
      (header.declared d).name =
        d.methods.mapIdx fun i m => (m.name.text, header.lineOf d + 2 + 2 * i) := scanned
  rw [Lookup.ownSlots, listed]
  apply List.ext_getElem?
  intro i
  simp only [InterfaceSource.slots, List.getElem?_map, List.getElem?_mapIdx, Option.map_map]
  rfl

variable {header}

/-- An ancestry consists of interfaces of the header, and begins with the one whose it is. -/
theorem ancestry_head {d : InterfaceSource} {ancestry : List InterfaceSource}
    (inherits : header.Ancestry d ancestry) :
    (∃ bases, ancestry = d :: bases) ∧ ∀ e ∈ ancestry, e ∈ header.interfaces := by
  induction inherits with
  | root listed base =>
    refine ⟨⟨[], rfl⟩, ?_⟩
    rintro e held
    rwa [List.mem_singleton.mp held]
  | derived listed base _ inductionHypothesis =>
    refine ⟨⟨_, rfl⟩, ?_⟩
    intro e held
    rcases List.mem_cons.mp held with rfl | above
    · exact listed
    · exact inductionHypothesis.2 e above

/-- The base of an interface that names one of the header is not the root. -/
theorem base_ne_root {d e : InterfaceSource} (listed : e ∈ header.interfaces)
    (base : lowerString d.base.text = lowerString e.name.text) : d.base.text ≠ Vtable.rootInterface := by
  intro root
  apply header.apart e listed
  rw [← base, root]

/-- The bases of an interface that derives from itself do not lead to the root. -/
theorem no_ancestry_of_self {d : InterfaceSource} {ancestry : List InterfaceSource}
    (self : lowerString d.base.text = lowerString d.name.text) : ¬ header.Ancestry d ancestry := by
  intro inherits
  induction inherits with
  | @root d listed base =>
    apply header.apart d listed
    rw [← self, base]
  | @derived d e bases listed base inherits inductionHypothesis =>
    obtain ⟨⟨_, rfl⟩, each⟩ := ancestry_head inherits
    have names : (header.interfaces.map fun d => lowerString d.name.text).Nodup :=
      List.pairwise_map.mpr header.distinct
    obtain rfl := List.inj_on_of_nodup_map names listed (each e List.mem_cons_self) (self.symm.trans base)
    exact inductionHypothesis self

/-- The interfaces of an ancestry are declared one from the other. -/
theorem lineage_of_ancestry {d : InterfaceSource} {ancestry : List InterfaceSource}
    (inherits : header.Ancestry d ancestry) (request : Identifier)
    (same : lowerString request.text = lowerString d.name.text) :
    Lookup.Lineage header.text request.text (ancestry.map header.declared) := by
  induction inherits generalizing request with
  | root listed base =>
    refine .root (header.firstDeclaration?_eq request listed same) ?_
    rw [declared, InterfaceSource.declaredAt, base]
  | @derived d e bases listed base inherits inductionHypothesis =>
    obtain ⟨⟨others, rfl⟩, each⟩ := ancestry_head inherits
    have other : d.base.text ≠ Vtable.rootInterface := base_ne_root (each e List.mem_cons_self) base
    exact .derived (header.firstDeclaration?_eq request listed same) rfl other
      (inductionHypothesis d.base base)

/-- The slots of an ancestry are those of the root and then those that were written, the most distant base
first. -/
theorem lineageSlots_of_ancestry {ancestry : List InterfaceSource} (some_ : ancestry ≠ [])
    (listed : ∀ e ∈ ancestry, e ∈ header.interfaces) :
    Lookup.lineageSlots header.text (ancestry.map header.declared) =
      Vtable.rootMethods.map Method.slot ++
        ancestry.reverse.flatMap fun e => e.slots (header.lineOf e) := by
  have foremost : Lookup.foremostSlots (ancestry.map header.declared) =
      Vtable.rootMethods.map Method.slot := by
    rw [Lookup.foremostSlots, List.getLast?_map, List.getLast?_eq_some_getLast some_]
    rfl
  have own : (ancestry.reverse.map header.declared).flatMap (Lookup.ownSlots header.text) =
      ancestry.reverse.flatMap fun e => e.slots (header.lineOf e) := by
    rw [List.flatMap_map]
    refine List.flatMap_congr fun e held => ?_
    exact header.ownSlots_eq (listed e (List.mem_reverse.mp held))
  rw [Lookup.lineageSlots, foremost, ← List.map_reverse, own]

/-- Where the bases of an interface lead to the root only beyond a number of interfaces, or never, the walk
of requests has not stopped before. -/
theorem requestAt_of_no_ancestry (n : Nat) {d : InterfaceSource} (listed : d ∈ header.interfaces)
    (request : Identifier) (same : lowerString request.text = lowerString d.name.text)
    (distant : ∀ ancestry, header.Ancestry d ancestry → n < ancestry.length) :
    (Lookup.requestAt header.text request.text n).isSome = true := by
  induction n generalizing d request with
  | zero => rfl
  | succ n inductionHypothesis =>
    rcases header.based d listed with root | ⟨e, inHeader, base⟩
    · have short := distant [d] (.root listed root)
      exact absurd short (by simp)
    · have next : Lookup.requestAt header.text request.text 1 = some d.base.text :=
        Lookup.requestAt_succ rfl (header.firstDeclaration?_eq request listed same) rfl
          (base_ne_root inHeader base.symm)
      have further : ∀ ancestry, header.Ancestry e ancestry → n < ancestry.length := by
        intro ancestry inherits
        exact Nat.lt_of_succ_lt_succ (distant (d :: ancestry) (.derived listed base.symm inherits))
      rw [Nat.add_comm, Lookup.requestAt_add, next, Option.bind_some]
      exact inductionHypothesis inHeader d.base base.symm further

end HeaderSource

end Header

namespace Lookup

open Header Text

variable {tree : Tree} {pattern : String} {place : Location}

/-- The text of a file to which characters of the ASCII range other than the carriage return were
written is what was written. -/
theorem fileText_written {text : List Char} (ascii : IsAscii text) (plain : '\r' ∉ text)
    (holds : tree.contents? place = some (String.ofList text).toUTF8) :
    fileText tree place = text := by
  rw [fileText, holds]
  apply (congrArg unifyLineEnds (decodeLossy_toUTF8 _ ascii)).trans
  exact unifyLineEnds_of_no_return _ plain

/-- A lookup in the file to which a header was written finds the vtable that was written.

Where the bases of an interface lead to the root through no more interfaces than the limit, the vtable holds the slots
of each of them from the root down, and those of the interface behind them. Where they do not, the lookup reports a
cycle.

The file holds the text that was written, and each interface is located in it as it was rendered, whatever blocks
stand around it. So a way to the root through the interfaces that were written is a lineage of the declarations that
are located, of the same length, and each declaration has the slots that were written for it. Without such a way the
walk of requests does not stop within the limit, and the lookup reports its chain. -/
theorem find_written (header : HeaderSource) (leads : LeadsToFile tree pattern place)
    (holds : tree.contents? place = some (String.ofList header.text).toUTF8) (recurse : Bool)
    (d : InterfaceSource) (listed : d ∈ header.interfaces) :
    (∀ ancestry, header.Ancestry d ancestry → ancestry.length ≤ maxChain →
      (find tree d.name.text pattern recurse Filter.none).1 =
        .ok (header.vtable d ancestry (Path.ofString pattern).toString)) ∧
    ((∀ ancestry, header.Ancestry d ancestry → maxChain < ancestry.length) → ∃ chain,
      (find tree d.name.text pattern recurse Filter.none).1 =
        .error (.lookup (.inheritanceCycle chain))) := by
  have text : fileText tree place = header.text :=
    fileText_written header.text_isAscii header.no_return holds
  have ascii : IsAscii (fileText tree place) := text ▸ header.text_isAscii
  have named : d.name.text ≠ "" := d.name.text_ne_empty
  have declared : firstDeclaration? d.name.text (fileText tree place) = some (header.declared d) := by
    rw [text]
    exact header.firstDeclaration?_eq d.name listed rfl
  have outcome := find_in_file leads d.name.text recurse named
  simp only [declared] at outcome
  rw [outcome]
  constructor
  · intro ancestry inherits short
    obtain ⟨⟨bases, rfl⟩, each⟩ := HeaderSource.ancestry_head inherits
    have lineage := HeaderSource.lineage_of_ancestry inherits d.name rfl
    rw [← text, List.map_cons] at lineage
    have within : (header.declared d :: bases.map header.declared).length ≤ maxChain := by
      simpa using short
    obtain ⟨methods, laidOut, slots, numbered⟩ :=
      slotsOf_of_lineage ascii d.name.isAscii lineage within
    have written := HeaderSource.lineageSlots_of_ancestry (List.cons_ne_nil d bases) each
    rw [← text, List.map_cons] at written
    rw [slotsInFile, laidOut, eq_numbered (slots.trans written) numbered]
    rfl
  · intro distant
    have beyond := HeaderSource.requestAt_of_no_ancestry maxChain listed d.name rfl distant
    have decided : DecidedByWalk (fileText tree place) d.name.text pattern (Path.ofString pattern).toString
        (((slotsInFile tree pattern place d.name.text (header.declared d)).map fun methods =>
          ⟨(header.declared d).name, methods, some (Path.ofString pattern).toString⟩).mapError .lookup) :=
      decidedByWalk_of_declared ascii d.name.isAscii declared pattern _
    obtain ⟨chain, reported, _⟩ := decided.endless (text ▸ beyond)
    exact ⟨chain, reported⟩

/-- A GUID that repeats one digit. -/
def repeated (digit : Char) (hex : isHexDigit digit = true) : Guid where
  first := List.replicate 8 digit
  second := List.replicate 4 digit
  third := List.replicate 4 digit
  fourth := List.replicate 4 digit
  fifth := List.replicate 12 digit
  lengths := by simp
  digits := by
    intro c held
    simp only [List.mem_append, List.mem_replicate] at held
    rcases held with (((⟨_, rfl⟩ | ⟨_, rfl⟩) | ⟨_, rfl⟩) | ⟨_, rfl⟩) | ⟨_, rfl⟩ <;> exact hex

/-- An interface that derives from one behind it. -/
def pen : InterfaceSource :=
  ⟨⟨"IPen", by decide, by decide, by decide⟩, repeated 'b' (by decide),
    ⟨"itool", by decide, by decide, by decide⟩,
    [⟨⟨"Draw", by decide, by decide, by decide⟩, none⟩]⟩

/-- An interface that derives from the root. -/
def tool : InterfaceSource :=
  ⟨⟨"ITool", by decide, by decide, by decide⟩, repeated 'a' (by decide),
    ⟨"IUnknown", by decide, by decide, by decide⟩,
    [⟨⟨"Pick", by decide, by decide, by decide⟩,
      some ⟨['v', 'o', 'i', 'd'], by decide, by decide, ⟨'v', by simp, by decide⟩⟩⟩]⟩

/-- An interface that derives from itself. -/
def loop : InterfaceSource :=
  ⟨⟨"ILoop", by decide, by decide, by decide⟩, repeated 'c' (by decide),
    ⟨"iloop", by decide, by decide, by decide⟩, []⟩

/-- A header of three interfaces. -/
def toolHeader : HeaderSource where
  interfaces := [pen, tool, loop]
  distinct := by decide +kernel
  apart := by decide +kernel
  based := by decide +kernel

/-- A tree with that header alone. -/
def toolTree : Tree := ⟨[], [(["tools.h"], (String.ofList toolHeader.text).toUTF8)], by simp [isEntryName]⟩

/-- The pen inherits from the tool, and the interface that derives from itself is a cycle. -/
theorem tool_vtables_written :
    (find toolTree "IPen" "tools.h" true Filter.none).1 = .ok (toolHeader.vtable pen [pen, tool] "tools.h") ∧
    ∃ chain, (find toolTree "ILoop" "tools.h" true Filter.none).1 =
      .error (.lookup (.inheritanceCycle chain)) := by
  have leads : LeadsToFile toolTree "tools.h" ["tools.h"] := ⟨by decide +kernel, by decide +kernel⟩
  have holds : toolTree.contents? ["tools.h"] = some (String.ofList toolHeader.text).toUTF8 := by rfl
  have penListed : pen ∈ toolHeader.interfaces := by simp [toolHeader]
  have toolListed : tool ∈ toolHeader.interfaces := by simp [toolHeader]
  have loopListed : loop ∈ toolHeader.interfaces := by simp [toolHeader]
  have inherits : toolHeader.Ancestry pen [pen, tool] :=
    .derived penListed (by decide +kernel) (.root toolListed rfl)
  constructor
  · exact (find_written toolHeader leads holds true pen penListed).1 _ inherits (by decide)
  · apply (find_written toolHeader leads holds true loop loopListed).2
    intro ancestry inherits
    exact absurd inherits (HeaderSource.no_ancestry_of_self (by decide +kernel))

end Lookup

end ComLayout
