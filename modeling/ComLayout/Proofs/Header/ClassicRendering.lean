import ComLayout.Proofs.Header.Rendering

/-!
# Writing generated headers

A header in the classic style is written from a list of interfaces. Each is declared as a class with virtual
methods, and once more as the struct that lists the slots of its table:

    MIDL_INTERFACE("ec5ec8a9-c395-4314-9c77-54d7a935ff70")
    IWICImagingFactory : public IUnknown
    {
    public:
        virtual HRESULT STDMETHODCALLTYPE CreateDecoder( void) = 0;
    };
    typedef struct IWICImagingFactoryVtbl
    {
        BEGIN_INTERFACE
        HRESULT ( STDMETHODCALLTYPE *QueryInterface )( 
            IWICImagingFactory * This);
        END_INTERFACE
    } IWICImagingFactoryVtbl;

The slots of the table are those of the struct. What is written for the class looks much like them.
-/

namespace ComLayout.Header

open Text

/-- The word that ends the list of slots. -/
def endWord : List Char := "END_INTERFACE".toList

/-- An interface of a generated header: its name, its GUID, its base, the virtual methods of its class and the
slots of its table. None of these names is the word that ends the table. -/
structure ClassicInterface where
  name : Identifier
  guid : Guid
  base : Identifier
  virtuals : List Identifier
  methods : List Identifier
  apart : ∀ x ∈ name :: (virtuals ++ methods), x.text.toList ≠ endWord

/-- The interfaces of a generated header, with names that are pairwise different up to case. -/
structure ClassicHeader where
  interfaces : List ClassicInterface
  distinct : interfaces.Pairwise fun d e => lowerString d.name.text ≠ lowerString e.name.text

/-- The indentation of declarations. -/
def margin : List Char := "    ".toList

/-- The words before the GUID of a declaration. -/
def guidWords : List Char := "MIDL_INTERFACE(\"".toList

/-- What stands between the base of a declaration and its virtual methods. -/
def classOpening : List Char := "\n    \x7b\n    public:\n".toList

/-- A virtual method up to its name. -/
def virtualWords : List Char := "        virtual HRESULT STDMETHODCALLTYPE ".toList

/-- What stands behind the name of a virtual method and a parenthesis. -/
def virtualEnding : List Char := " void) = 0;\n".toList

/-- What stands between the virtual methods and the name of the struct. -/
def structWords : List Char := "    \x7d;\n    typedef struct ".toList

/-- What follows the name of an interface in the name of its struct. -/
def tableSuffix : List Char := "Vtbl".toList

/-- What stands between the name of the struct and its slots. -/
def tableOpening : List Char := "\n    \x7b\n        BEGIN_INTERFACE\n".toList

/-- What stands before a slot and a parenthesis. -/
def slotWords : List Char := "        HRESULT ".toList

/-- What stands before the name of a slot, behind a parenthesis and a blank. -/
def slotCall : List Char := "STDMETHODCALLTYPE *".toList

/-- What stands between a slot and the name of the interface on the next line. -/
def slotBreak : List Char := " \n            ".toList

/-- What stands behind the name of the interface. -/
def slotEnding : List Char := " * This);\n".toList

/-- The indentation of the word that ends the slots. -/
def endIndent : List Char := "        ".toList

/-- What stands between the word that ends the slots and the name of the struct. -/
def tableClosing : List Char := "\n    \x7d ".toList

/-- A slot up to the parenthesis behind its name. -/
def slotOccurrence (m : Identifier) : List Char := slotCall ++ (m.text.toList ++ [' ', ')', '('])

namespace ClassicInterface

/-- The words that introduce a declaration, with its GUID. -/
def tag (d : ClassicInterface) : List Char := guidWords ++ (d.guid.text ++ ['"', ')'])

/-- The base clause. -/
def clause (d : ClassicInterface) : List Char := derivation ++ d.base.text.toList

/-- A declaration up to its base. -/
def declaration (d : ClassicInterface) : List Char :=
  d.tag ++ '\n' :: (margin ++ (d.name.text.toList ++ d.clause))

/-- The name of the struct. -/
def table (d : ClassicInterface) : List Char := d.name.text.toList ++ tableSuffix

/-- The line of a virtual method. -/
def virtualLine (v : Identifier) : List Char := virtualWords ++ (v.text.toList ++ '(' :: virtualEnding)

/-- From the end of a declaration up to the name of the struct. -/
def body (d : ClassicInterface) : List Char :=
  classOpening ++ (d.virtuals.flatMap virtualLine ++ structWords)

/-- The two lines of a slot. -/
def slotLines (d : ClassicInterface) (m : Identifier) : List Char :=
  slotWords ++ ('(' :: ' ' :: (slotOccurrence m ++ (slotBreak ++ (d.name.text.toList ++ slotEnding))))

/-- The lines of all slots, up to the word that ends them. -/
def slotText (d : ClassicInterface) : List Char := d.methods.flatMap d.slotLines ++ endIndent

/-- What stands from the word that ends the slots on. -/
def ending (d : ClassicInterface) : List Char := endWord ++ (tableClosing ++ (d.table ++ [';', '\n']))

/-- The lines of an interface. -/
def text (d : ClassicInterface) : List Char :=
  margin ++ (d.declaration ++ (d.body ++ (d.table ++ (tableOpening ++ (d.slotText ++ d.ending)))))

/-- The number of lines of an interface. -/
def height (d : ClassicInterface) : Nat := 10 + d.virtuals.length + 2 * d.methods.length

end ClassicInterface

/-- The text of some interfaces, one behind the other. -/
def textOfClassic (interfaces : List ClassicInterface) : List Char := interfaces.flatMap ClassicInterface.text

/-- The text of a generated header. -/
def ClassicHeader.text (header : ClassicHeader) : List Char := textOfClassic header.interfaces

section Lines

/-- The line feeds of many texts, each of which has as many as the others. -/
theorem lineFeeds_flatMap {α : Type} (xs : List α) (write : α → List Char) (each : Nat)
    (same : ∀ x, lineFeeds (write x) = each) : lineFeeds (xs.flatMap write) = each * xs.length := by
  induction xs with
  | nil => rfl
  | cons x xs inductionHypothesis =>
    rw [List.flatMap_cons, lineFeeds_append, same, inductionHypothesis, List.length_cons, Nat.mul_succ,
      Nat.add_comm]

namespace ClassicInterface

/-- There is no line feed in a GUID. -/
theorem guid_oneLine (d : ClassicInterface) : OneLine d.guid.text :=
  fun c held => ⟨(d.guid.chars c held).1, (d.guid.chars c held).2.1⟩

/-- The name of the struct stands in one line. -/
theorem table_oneLine (d : ClassicInterface) : OneLine d.table := by
  have suffix_ : OneLine tableSuffix := by decide
  exact oneLine_append d.name.oneLine suffix_

/-- A slot stands in one line up to the parenthesis behind its name. -/
theorem slotOccurrence_oneLine (m : Identifier) : OneLine (slotOccurrence m) := by
  have words : OneLine slotCall := by decide
  have closed : OneLine [' ', ')', '('] := by decide
  exact oneLine_append words (oneLine_append m.oneLine closed)

/-- A declaration stands on two lines. -/
theorem declaration_lineFeeds (d : ClassicInterface) : lineFeeds d.declaration = 1 := by
  have introduced : OneLine guidWords := by decide
  have closed : OneLine ['"', ')'] := by decide
  have indented : OneLine margin := by decide
  have derives : OneLine derivation := by decide
  have before : OneLine d.tag := oneLine_append introduced (oneLine_append d.guid_oneLine closed)
  have behind : OneLine (margin ++ (d.name.text.toList ++ d.clause)) :=
    oneLine_append indented (oneLine_append d.name.oneLine (oneLine_append derives d.base.oneLine))
  have feed : lineFeeds ['\n'] = 1 := by decide
  rw [declaration, ← List.singleton_append, lineFeeds_append, lineFeeds_append, lineFeeds_of_oneLine before,
    lineFeeds_of_oneLine behind, feed]

/-- Between a declaration and the name of the struct there is a line for each virtual method. -/
theorem body_lineFeeds (d : ClassicInterface) : lineFeeds d.body = 4 + d.virtuals.length := by
  have opened : lineFeeds classOpening = 3 := by decide
  have closed : lineFeeds structWords = 1 := by decide
  have each (v : Identifier) : lineFeeds (virtualLine v) = 1 := by
    have words : lineFeeds virtualWords = 0 := by decide
    have ended : lineFeeds ('(' :: virtualEnding) = 1 := by decide
    rw [virtualLine, lineFeeds_append, lineFeeds_append, lineFeeds_of_oneLine v.oneLine, words, ended]
  rw [body, lineFeeds_append, lineFeeds_append, lineFeeds_flatMap _ _ 1 each, opened, closed]
  omega

/-- A slot takes up two lines. -/
theorem slotLines_lineFeeds (d : ClassicInterface) (m : Identifier) : lineFeeds (d.slotLines m) = 2 := by
  have words : lineFeeds slotWords = 0 := by decide
  have opened : lineFeeds ['(', ' '] = 0 := by decide
  have broken : lineFeeds slotBreak = 1 := by decide
  have ended : lineFeeds slotEnding = 1 := by decide
  have split : d.slotLines m = slotWords ++ (['(', ' '] ++ (slotOccurrence m ++ (slotBreak ++
      (d.name.text.toList ++ slotEnding)))) := rfl
  rw [split, lineFeeds_append, lineFeeds_append, lineFeeds_append, lineFeeds_append, lineFeeds_append,
    lineFeeds_of_oneLine (slotOccurrence_oneLine m), lineFeeds_of_oneLine d.name.oneLine, words, opened, broken,
    ended]

/-- An interface takes up its height. -/
theorem text_lineFeeds (d : ClassicInterface) : lineFeeds d.text = d.height := by
  have indented : lineFeeds margin = 0 := by decide
  have opened : lineFeeds tableOpening = 3 := by decide
  have endIndented : lineFeeds endIndent = 0 := by decide
  have ended : lineFeeds endWord = 0 := by decide
  have closed : lineFeeds tableClosing = 1 := by decide
  have last : lineFeeds [';', '\n'] = 1 := by decide
  simp only [text, slotText, ending, lineFeeds_append, d.declaration_lineFeeds, d.body_lineFeeds,
    lineFeeds_of_oneLine d.table_oneLine, lineFeeds_flatMap _ _ 2 d.slotLines_lineFeeds, indented, opened,
    endIndented, ended, closed, last, height]
  omega

end ClassicInterface

/-- The number of lines of some interfaces. -/
def heightOfClassic : List ClassicInterface → Nat
  | [] => 0
  | d :: rest => d.height + heightOfClassic rest

/-- The text of some interfaces has as many lines as they have. -/
theorem textOfClassic_lineFeeds (interfaces : List ClassicInterface) :
    lineFeeds (textOfClassic interfaces) = heightOfClassic interfaces := by
  induction interfaces with
  | nil => rfl
  | cons d rest inductionHypothesis =>
    rw [textOfClassic, List.flatMap_cons, lineFeeds_append, d.text_lineFeeds, heightOfClassic]
    exact congrArg (d.height + ·) inductionHypothesis

end Lines

section Characters

/-- Printable ASCII and line feeds throughout. -/
def PlainText (cs : List Char) : Prop := ∀ c ∈ cs, isPlain c = true

instance (cs : List Char) : Decidable (PlainText cs) :=
  inferInstanceAs (Decidable (∀ c ∈ cs, isPlain c = true))

theorem plainText_append {as bs : List Char} : PlainText (as ++ bs) ↔ PlainText as ∧ PlainText bs :=
  List.forall_mem_append

theorem plainText_flatMap {α : Type} {xs : List α} {write : α → List Char} :
    PlainText (xs.flatMap write) ↔ ∀ x ∈ xs, PlainText (write x) := by
  simp only [PlainText, List.mem_flatMap, forall_exists_index, and_imp]
  constructor
  · intro plain x listed c held
    exact plain c x listed held
  · intro plain c x listed held
    exact plain x listed c held

/-- What stands in one line is plain text. -/
theorem plainText_of_oneLine {cs : List Char} (line : OneLine cs) : PlainText cs := fun c held => (line c held).1

/-- The lines of an interface are plain text. -/
theorem ClassicInterface.text_plain (d : ClassicInterface) : PlainText d.text := by
  have name := plainText_of_oneLine d.name.oneLine
  have base := plainText_of_oneLine d.base.oneLine
  have table := plainText_of_oneLine d.table_oneLine
  have guid := plainText_of_oneLine d.guid_oneLine
  have virtualText : ∀ v ∈ d.virtuals, PlainText (virtualLine v) := by
    intro v _
    have words : PlainText virtualWords := by decide
    have ended : PlainText ('(' :: virtualEnding) := by decide
    exact plainText_append.mpr ⟨words, plainText_append.mpr ⟨plainText_of_oneLine v.oneLine, ended⟩⟩
  have slots : ∀ m ∈ d.methods, PlainText (d.slotLines m) := by
    intro m _
    have words : PlainText slotWords := by decide
    have broken : PlainText slotBreak := by decide
    have opened : PlainText ['(', ' '] := by decide
    have ended : PlainText slotEnding := by decide
    have split : d.slotLines m = slotWords ++ (['(', ' '] ++ (slotOccurrence m ++ (slotBreak ++
        (d.name.text.toList ++ slotEnding)))) := rfl
    simp only [split, plainText_append]
    exact ⟨words, opened, plainText_of_oneLine (slotOccurrence_oneLine m), broken, name, ended⟩
  have fixed : PlainText margin ∧ PlainText guidWords ∧ PlainText ['"', ')'] ∧ PlainText ['\n'] ∧
      PlainText derivation ∧ PlainText classOpening ∧ PlainText structWords ∧ PlainText tableOpening ∧
      PlainText endIndent ∧ PlainText endWord ∧ PlainText tableClosing ∧ PlainText [';', '\n'] := by
    decide +kernel
  obtain ⟨indented, introduced, closedTag, feed, derives, opened, struct_, tableOpened, endIndented, endText,
    closedTable, last⟩ := fixed
  have declared : PlainText d.declaration := by
    rw [declaration, ← List.singleton_append]
    simp only [tag, clause, plainText_append]
    exact ⟨⟨introduced, guid, closedTag⟩, feed, indented, name, derives, base⟩
  simp only [text, body, slotText, ending, plainText_append, plainText_flatMap]
  exact ⟨indented, declared, ⟨opened, virtualText, struct_⟩, table, tableOpened,
    ⟨slots, endIndented⟩, endText, closedTable, table, last⟩

/-- A generated header is ASCII. -/
theorem ClassicHeader.text_isAscii (header : ClassicHeader) : IsAscii header.text := by
  intro c held
  obtain ⟨d, _, inside⟩ := List.mem_flatMap.mp held
  exact ascii_of_isPlain (d.text_plain c inside)

/-- There are no carriage returns in a generated header. -/
theorem ClassicHeader.no_return (header : ClassicHeader) : '\r' ∉ header.text := by
  intro held
  obtain ⟨d, _, inside⟩ := List.mem_flatMap.mp held
  exact absurd (d.text_plain '\r' inside) (by decide)

end Characters

end ComLayout.Header
