import ComLayout.Header.Methods
import ComLayout.Proofs.Text.Ascii
import ComLayout.Vtable.Basic

/-!
# Writing headers

A header in the declarative style is written from a list of interfaces, each with its name, its GUID, its
base and its methods:

    interface DX_DECLARE_INTERFACE("2cd90691-12e2-11dc-9fed-001143a055f9") ID2D1Resource : public IUnknown
    {
        STDMETHOD_(void, GetFactory)(
            ) PURE;
    }; // interface ID2D1Resource

What each part may consist of is carried by its type. The text keeps to printable ASCII and line feeds.
-/

namespace ComLayout.Header

open Text

/-- A character of an identifier: an ASCII letter or digit, or the underscore. -/
def isNameChar (c : Char) : Bool := c.isAlphanum || c == '_'

/-- An identifier: letters, digits and underscores, of which there is one at least and the first is no
digit. -/
structure Identifier where
  text : String
  some_ : text.toList ≠ []
  chars : ∀ c ∈ text.toList, isNameChar c = true
  first : text.toList.head?.any Char.isDigit = false
deriving DecidableEq

/-- The text of an identifier is not empty. -/
theorem Identifier.text_ne_empty (name : Identifier) : name.text ≠ "" := by
  intro nothing
  exact name.some_ (by rw [nothing]; rfl)

/-- A GUID: five groups of hexadecimal digits. -/
structure Guid where
  first : List Char
  second : List Char
  third : List Char
  fourth : List Char
  fifth : List Char
  lengths : first.length = 8 ∧ second.length = 4 ∧ third.length = 4 ∧ fourth.length = 4 ∧ fifth.length = 12
  digits : ∀ c ∈ first ++ second ++ third ++ fourth ++ fifth, isHexDigit c = true

/-- The groups of a GUID, joined by hyphens. -/
def Guid.text (guid : Guid) : List Char :=
  guid.first ++ '-' :: (guid.second ++ '-' :: (guid.third ++ '-' :: (guid.fourth ++ '-' :: guid.fifth)))

/-- A return type: printable ASCII without a comma or parentheses, and not all spaces. -/
structure ReturnType where
  text : List Char
  printable : ∀ c ∈ text, 32 ≤ c.toNat ∧ c.toNat ≤ 126
  plain : ',' ∉ text ∧ '(' ∉ text ∧ ')' ∉ text
  visible : ∃ c ∈ text, c ≠ ' '

/-- A method: its name, and its return type unless that is the usual one. -/
structure MethodSource where
  name : Identifier
  returns : Option ReturnType

/-- An interface: its name, its GUID, its base and its own methods. -/
structure InterfaceSource where
  name : Identifier
  guid : Guid
  base : Identifier
  methods : List MethodSource

/-- The interfaces of a header. Their names are pairwise different up to case, none is that of the root,
and each has the root as its base or an interface of the header. -/
structure HeaderSource where
  interfaces : List InterfaceSource
  distinct : interfaces.Pairwise fun d e => lowerString d.name.text ≠ lowerString e.name.text
  apart : ∀ d ∈ interfaces, lowerString d.name.text ≠ lowerString Vtable.rootInterface
  based : ∀ d ∈ interfaces, d.base.text = Vtable.rootInterface ∨
    ∃ e ∈ interfaces, lowerString e.name.text = lowerString d.base.text

/-- The words before the GUID of an interface. -/
def introduction : List Char := "interface DX_DECLARE_INTERFACE(\"".toList

/-- The words between the name of an interface and its base. -/
def derivation : List Char := " : public ".toList

/-- The line that opens a body, with the line end before it. -/
def opening : List Char := "\n\x7b\n".toList

/-- The words before the name in the line that closes a body. -/
def closing : List Char := "\x7d; // interface ".toList

/-- The indentation of a method. -/
def indentation : List Char := "    ".toList

/-- The word with which a method begins. -/
def methodWord : List Char := "STDMETHOD".toList

/-- What stands behind the name of a method and the parenthesis that closes it. -/
def parameters : List Char := "(\n        ) PURE;\n".toList

namespace MethodSource

/-- What announces the name of a method. -/
def announcement (m : MethodSource) : List Char :=
  match m.returns with
  | none => ['(']
  | some type => '_' :: '(' :: (type.text ++ [',', ' '])

/-- A method up to the parenthesis behind its name. -/
def occurrence (m : MethodSource) : List Char :=
  methodWord ++ m.announcement ++ m.name.text.toList ++ [')']

/-- The two lines of a method. -/
def text (m : MethodSource) : List Char := indentation ++ m.occurrence ++ parameters

end MethodSource

namespace InterfaceSource

/-- The text from the keyword of a declaration up to its GUID and the parenthesis behind it. -/
def tag (d : InterfaceSource) : List Char := introduction ++ d.guid.text ++ ['"', ')']

/-- The name of an interface and its base clause. -/
def clause (d : InterfaceSource) : List Char :=
  d.name.text.toList ++ derivation ++ d.base.text.toList

/-- A declaration, up to the base. -/
def declaration (d : InterfaceSource) : List Char := d.tag ++ ' ' :: d.clause

/-- The body of an interface, from the end of its declaration up to the line that closes it. -/
def body (d : InterfaceSource) : List Char := opening ++ d.methods.flatMap MethodSource.text

/-- The line that closes the body, up to the name. -/
def ending (d : InterfaceSource) : List Char := closing ++ d.name.text.toList

/-- The lines of an interface. -/
def text (d : InterfaceSource) : List Char := d.declaration ++ d.body ++ d.ending ++ ['\n']

/-- The number of lines of an interface. -/
def height (d : InterfaceSource) : Nat := 2 * d.methods.length + 3

end InterfaceSource

/-- The text of some interfaces, one behind the other. -/
def textOfInterfaces (interfaces : List InterfaceSource) : List Char :=
  interfaces.flatMap InterfaceSource.text

/-- The text of a header. -/
def HeaderSource.text (header : HeaderSource) : List Char := textOfInterfaces header.interfaces

/-- A line feed or a printable ASCII character. -/
def isPlain (c : Char) : Bool := c == '\n' || (32 ≤ c.toNat && c.toNat ≤ 126)

/-- Such a character is ASCII. -/
theorem ascii_of_isPlain {c : Char} (plain : isPlain c = true) : c.toNat < 128 := by
  simp only [isPlain, Bool.or_eq_true, Bool.and_eq_true, decide_eq_true_eq, beq_iff_eq] at plain
  rcases plain with rfl | ⟨_, high⟩
  · decide
  · omega

section Characters

/-- The characters of identifiers are ASCII. -/
theorem nameChar_ascii {c : Char} (holds : isNameChar c = true) : c.toNat < 128 := by
  simp only [isNameChar, Char.isAlphanum, Bool.or_eq_true, beq_iff_eq] at holds
  rcases holds with (letter | digit) | rfl
  · rcases Bool.or_eq_true_iff.mp letter with upper | lower
    · have high : c.toNat ≤ 90 := (of_decide_eq_true upper).2
      omega
    · have high : c.toNat ≤ 122 := of_decide_eq_true (Bool.and_eq_true_iff.mp lower).2
      omega
  · have high : c.toNat ≤ 57 := (Char.isDigit_iff_toNat.mp digit).2
    omega
  · decide

/-- The characters of identifiers are word characters, printable and no white space. -/
theorem nameChar_class {c : Char} (holds : isNameChar c = true) :
    isWord c = true ∧ isBlank c = false ∧ isPlain c = true ∧ c ≠ '\n' := by
  have each : ∀ c : Char, c.toNat < 128 → isNameChar c = true →
      isWord c = true ∧ isBlank c = false ∧ isPlain c = true ∧ c ≠ '\n' := forall_ascii (by decide +kernel)
  exact each c (nameChar_ascii holds) holds

/-- Hexadecimal digits are printable. -/
theorem hexDigit_class {c : Char} (holds : isHexDigit c = true) : isPlain c = true ∧ c ≠ '\n' ∧ c ≠ '(' := by
  have ascii : c.toNat < 128 := by
    simp only [isHexDigit, Char.isDigit, Bool.or_eq_true, Bool.and_eq_true, decide_eq_true_eq, Char.le_def,
      UInt32.le_iff_toNat_le] at holds
    rcases holds with ⟨_, high⟩ | ⟨_, high⟩ | ⟨_, high⟩
    · change c.toNat ≤ 57 at high
      omega
    · change c.toNat ≤ 102 at high
      omega
    · change c.toNat ≤ 70 at high
      omega
  have each : ∀ c : Char, c.toNat < 128 → isHexDigit c = true → isPlain c = true ∧ c ≠ '\n' ∧ c ≠ '(' :=
    forall_ascii (by decide +kernel)
  exact each c ascii holds

/-- A character that cannot stand in an identifier does not. -/
theorem Identifier.not_mem (name : Identifier) (c : Char) (other : isNameChar c = false) :
    c ∉ name.text.toList := by
  intro held
  exact absurd (name.chars c held) (by simp [other])

/-- Where names are pairwise different up to case, an entry is the only one with its name, and stands behind
those above it. -/
theorem split_above {α : Type} {entries : List α} (name : α → Identifier)
    (distinct : entries.Pairwise fun d e => lowerString (name d).text ≠ lowerString (name e).text) {d : α}
    (listed : d ∈ entries) :
    ∃ after, entries = (entries.takeWhile fun e => name e ≠ name d) ++ d :: after ∧
      ∀ e ∈ entries.takeWhile (fun e => name e ≠ name d), lowerString (name e).text ≠ lowerString (name d).text := by
  obtain ⟨before, after, split⟩ := List.append_of_mem listed
  have others : ∀ e ∈ before, lowerString (name e).text ≠ lowerString (name d).text := by
    rw [split, List.pairwise_append] at distinct
    intro e member
    exact distinct.2.2 e member d List.mem_cons_self
  have above : (entries.takeWhile fun e => name e ≠ name d) = before := by
    have named : ∀ e ∈ before, decide (name e ≠ name d) = true := by
      intro e member
      refine decide_eq_true fun same => others e member ?_
      rw [same]
    rw [split, List.takeWhile_append_of_pos named, List.takeWhile_cons_of_neg (by simp), List.append_nil]
  rw [above]
  exact ⟨after, split, others⟩

/-- Identifiers are ASCII. -/
theorem Identifier.isAscii (name : Identifier) : IsAscii name.text.toList :=
  fun c held => nameChar_ascii (name.chars c held)

/-- A GUID is made of hyphens and hexadecimal digits. -/
theorem Guid.mem_text (guid : Guid) (c : Char) (held : c ∈ guid.text) : c = '-' ∨ isHexDigit c = true := by
  by_cases hyphen : c = '-'
  · exact .inl hyphen
  · refine .inr (guid.digits c ?_)
    simpa [Guid.text, hyphen] using held

/-- The characters of a GUID are printable. -/
theorem Guid.chars (guid : Guid) (c : Char) (held : c ∈ guid.text) :
    isPlain c = true ∧ c ≠ '\n' ∧ c ≠ '(' := by
  rcases guid.mem_text c held with rfl | digit
  · decide
  · exact hexDigit_class digit

/-- The characters of a return type are printable. -/
theorem ReturnType.chars (type : ReturnType) (c : Char) (held : c ∈ type.text) :
    isPlain c = true ∧ c ≠ '\n' ∧ c ≠ '(' ∧ isTypeChar c = true := by
  obtain ⟨low, high⟩ := type.printable c held
  obtain ⟨comma, opened, closed⟩ := type.plain
  have noComma : c ≠ ',' := by
    intro same
    exact comma (same ▸ held)
  have notOpened : c ≠ '(' := by
    intro same
    exact opened (same ▸ held)
  have notClosed : c ≠ ')' := by
    intro same
    exact closed (same ▸ held)
  have noFeed : c ≠ '\n' := by
    rintro rfl
    exact absurd low (by decide)
  exact ⟨by simp [isPlain, low, high], noFeed, notOpened, by simp [isTypeChar, noComma, notOpened, notClosed]⟩

end Characters

section Lines

/-- A stretch of one line: printable ASCII throughout. -/
def OneLine (cs : List Char) : Prop := ∀ c ∈ cs, isPlain c = true ∧ c ≠ '\n'

instance (cs : List Char) : Decidable (OneLine cs) :=
  inferInstanceAs (Decidable (∀ c ∈ cs, isPlain c = true ∧ c ≠ '\n'))

/-- Stretches of one line may be joined. -/
theorem oneLine_append {as bs : List Char} (first : OneLine as) (second : OneLine bs) :
    OneLine (as ++ bs) := by
  intro c held
  rcases List.mem_append.mp held with inFirst | inSecond
  · exact first c inFirst
  · exact second c inSecond

/-- There is no line feed within a line. -/
theorem lineFeeds_of_oneLine {cs : List Char} (line : OneLine cs) : lineFeeds cs = 0 :=
  List.count_eq_zero.mpr fun held => (line '\n' held).2 rfl

/-- An identifier stands in one line. -/
theorem Identifier.oneLine (name : Identifier) : OneLine name.text.toList := by
  intro c held
  obtain ⟨_, _, plain, feed⟩ := nameChar_class (name.chars c held)
  exact ⟨plain, feed⟩

/-- A method stands in one line up to the parenthesis behind its name. -/
theorem MethodSource.occurrence_oneLine (m : MethodSource) : OneLine m.occurrence := by
  have announced : OneLine m.announcement := by
    unfold announcement
    cases m.returns with
    | none =>
      decide
    | some type =>
      have opened : OneLine ['_', '('] := by decide
      have comma : OneLine [',', ' '] := by decide
      have line : OneLine type.text := by
        intro c held
        exact ⟨(type.chars c held).1, (type.chars c held).2.1⟩
      exact oneLine_append opened (oneLine_append line comma)
  have word : OneLine methodWord := by decide
  have closed : OneLine [')'] := by decide
  exact oneLine_append (oneLine_append (oneLine_append word announced) m.name.oneLine) closed

/-- A declaration stands in one line. -/
theorem InterfaceSource.declaration_oneLine (d : InterfaceSource) : OneLine d.declaration := by
  have words : OneLine introduction := by decide
  have guid : OneLine d.guid.text := by
    intro c held
    exact ⟨(d.guid.chars c held).1, (d.guid.chars c held).2.1⟩
  have closed : OneLine ['"', ')'] := by decide
  have blank : OneLine [' '] := by decide
  have derives : OneLine derivation := by decide
  have tag : OneLine d.tag := oneLine_append (oneLine_append words guid) closed
  have clause : OneLine d.clause := oneLine_append (oneLine_append d.name.oneLine derives) d.base.oneLine
  exact oneLine_append tag (oneLine_append blank clause)

/-- What closes a body stands in one line up to the name. -/
theorem InterfaceSource.ending_oneLine (d : InterfaceSource) : OneLine d.ending := by
  have words : OneLine closing := by decide
  exact oneLine_append words d.name.oneLine

/-- A method takes up two lines. -/
theorem MethodSource.text_lineFeeds (m : MethodSource) : lineFeeds m.text = 2 := by
  rw [text, lineFeeds_append, lineFeeds_append, lineFeeds_of_oneLine m.occurrence_oneLine]
  decide

/-- Methods take up two lines each. -/
theorem methods_lineFeeds (methods : List MethodSource) :
    lineFeeds (methods.flatMap MethodSource.text) = 2 * methods.length := by
  induction methods with
  | nil => rfl
  | cons m rest inductionHypothesis =>
    rw [List.flatMap_cons, lineFeeds_append, m.text_lineFeeds, inductionHypothesis, List.length_cons]
    omega

/-- An interface takes up its height. -/
theorem InterfaceSource.text_lineFeeds (d : InterfaceSource) : lineFeeds d.text = d.height := by
  have opened : lineFeeds opening = 2 := by decide
  have ended : lineFeeds ['\n'] = 1 := by decide
  rw [text, body, lineFeeds_append, lineFeeds_append, lineFeeds_append, lineFeeds_append,
    lineFeeds_of_oneLine d.declaration_oneLine, lineFeeds_of_oneLine d.ending_oneLine, methods_lineFeeds,
    opened, ended, height]
  omega

/-- The lines of a method consist of printable ASCII and line feeds. -/
theorem MethodSource.text_plain (m : MethodSource) : ∀ c ∈ m.text, isPlain c = true := by
  have indent : ∀ c ∈ indentation, isPlain c = true := by decide
  have ended : ∀ c ∈ parameters, isPlain c = true := by decide
  intro c held
  rcases List.mem_append.mp held with front | back
  · rcases List.mem_append.mp front with blank | inside
    · exact indent c blank
    · exact (m.occurrence_oneLine c inside).1
  · exact ended c back

/-- The lines of an interface consist of printable ASCII and line feeds. -/
theorem InterfaceSource.text_plain (d : InterfaceSource) : ∀ c ∈ d.text, isPlain c = true := by
  have opened : ∀ c ∈ opening, isPlain c = true := by decide
  intro c held
  simp only [text, body, List.mem_append, List.mem_flatMap, List.mem_singleton] at held
  rcases held with ((declared | inOpening | ⟨m, _, inMethod⟩) | inEnding) | rfl
  · exact (d.declaration_oneLine c declared).1
  · exact opened c inOpening
  · exact m.text_plain c inMethod
  · exact (d.ending_oneLine c inEnding).1
  · decide

/-- A header is ASCII. -/
theorem HeaderSource.text_isAscii (header : HeaderSource) : IsAscii header.text := by
  intro c held
  obtain ⟨d, _, inside⟩ := List.mem_flatMap.mp held
  exact ascii_of_isPlain (d.text_plain c inside)

/-- There are no carriage returns in a header. -/
theorem HeaderSource.no_return (header : HeaderSource) : '\r' ∉ header.text := by
  intro held
  obtain ⟨d, _, inside⟩ := List.mem_flatMap.mp held
  exact absurd (d.text_plain '\r' inside) (by decide)

end Lines

end ComLayout.Header
