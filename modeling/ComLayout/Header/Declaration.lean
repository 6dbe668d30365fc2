import ComLayout.Text.Blank
import ComLayout.Text.Place
import ComLayout.Vtable.LookupError

/-!
# Interface declarations in a header

A header declares an interface in one of two forms. The classic form stands in generated headers:

    MIDL_INTERFACE("ec5ec8a9-c395-4314-9c77-54d7a935ff70")
    IWICImagingFactory : public IUnknown

The declarative form stands in headers written by hand:

    interface DX_DECLARE_INTERFACE("2cd90691-12e2-11dc-9fed-001143a055f9") ID2D1Resource : public IUnknown

`locate` finds the leftmost declaration of a name, in either form. Only the name is compared without
regard to case.
-/

namespace ComLayout

open Text

/-- The two ways in which headers declare interfaces and list their methods. -/
inductive Grammar where
  | classic
  | declarative
deriving DecidableEq, Repr

/-- The name of a grammar. -/
def Grammar.label : Grammar → String
  | .classic => "classic"
  | .declarative => "declarative"

/-- The grammar of that name. -/
def Grammar.ofLabel? (label : String) : Option Grammar :=
  [Grammar.classic, Grammar.declarative].find? (·.label == label)

/-- The form of a declaration. A classic declaration lists the methods of its bases itself, so only
the declarative form has a base to follow. -/
inductive DeclarationForm where
  | classic
  | declarative (base : String)
deriving DecidableEq, Repr

/-- The grammar that a form belongs to. -/
def DeclarationForm.grammar : DeclarationForm → Grammar
  | .classic => .classic
  | .declarative _ => .declarative

/-- The declaration of an interface: the offsets at which it starts and stops, the name as written
there, the identifier in braces, and its form. -/
structure Declaration where
  start : Nat
  stop : Nat
  name : String
  iid : String
  form : DeclarationForm
deriving DecidableEq, Repr

/-- An interface identifier as it is reported: the GUID in braces. -/
def formatIid (guid : String) : String := "\x7b" ++ guid ++ "\x7d"

namespace Header

/-- A digit in base sixteen, in either case. -/
def isHexDigit (c : Char) : Bool :=
  c.isDigit || (('a' ≤ c && c ≤ 'f') || ('A' ≤ c && c ≤ 'F'))

/-- The place after exactly `count` hexadecimal digits. -/
def hexRun? : (count : Nat) → Place → Option Place
  | 0, p => some p
  | count + 1, p =>
    match p.rest with
    | [] => none
    | c :: rest => if isHexDigit c then hexRun? count (p.after c rest) else none

/-- The place after a GUID: groups of 8, 4, 4, 4 and 12 hexadecimal digits, joined by hyphens. -/
def guidEnd? (p : Place) : Option Place := do
  let p ← hexRun? 8 p
  let p ← hexRun? 4 (← p.word? "-")
  let p ← hexRun? 4 (← p.word? "-")
  let p ← hexRun? 4 (← p.word? "-")
  hexRun? 12 (← p.word? "-")

/-- The GUID that stands here, and the place after it. -/
def guid? (p : Place) : Option (List Char × Place) :=
  (guidEnd? p).map fun q => (p.rest.take (q.offset - p.offset), q)

/-- A quoted GUID up to the closing parenthesis, with white space at both ends. -/
def quotedGuid? (p : Place) : Option (List Char × Place) := do
  let p ← (p.skip isBlank).word? "\""
  let (guid, p) ← guid? p
  let p ← p.word? "\""
  let p ← (p.skip isBlank).word? ")"
  some (guid, p)

/-- A name up to case with a word boundary behind it. -/
def wholeName? (name : List Char) (p : Place) : Option (List Char × Place) := do
  let (written, p) ← p.name? name
  let p ← p.demand Place.isBoundary
  some (written, p)

/-- The base clause that may follow a classic declaration on its line. -/
def classicBase? (p : Place) : Option Place := do
  let p ← (p.skip isGap).word? ":"
  let p ← (p.skip isGap).word? "public"
  let (_, p) ← p.run? isGap
  let (_, p) ← p.run? isWord
  some p

/-- The line end after gaps, as a line feed with or without a carriage return before it. -/
def lineEnd? (p : Place) : Option Place :=
  let p := p.skip isGap
  p.word? "\r\n" <|> p.word? "\n"

/-- A classic declaration of the name that starts here. -/
def classicAt? (name : List Char) (here : Place) : Option Declaration := do
  let p ← here.word? "MIDL_INTERFACE("
  let (guid, p) ← quotedGuid? p
  let p ← lineEnd? p
  let (written, p) ← (p.reach isGap).findSome? (wholeName? name)
  let stop := (classicBase? p).getD p
  some ⟨here.offset, stop.offset, String.ofList written, formatIid (String.ofList guid), .classic⟩

/-- Whether a word introduces the GUID of a declarative declaration. -/
def isDeclareTag (word : List Char) : Bool :=
  "DECLARE_INTERFACE".toList.isSuffixOf word || word == "DECLSPEC_UUID".toList

/-- The name and the base clause of a declarative declaration. -/
def nameAndBase? (name : List Char) (p : Place) : Option (List Char × List Char × Place) := do
  let (written, p) ← wholeName? name p
  let p ← (p.skip isBlank).word? ":"
  let p ← (p.skip isBlank).word? "public"
  let (_, p) ← p.run? isBlank
  let (base, p) ← p.run? isWord
  some (written, base, p)

/-- A declarative declaration of the name that starts here. -/
def declarativeAt? (name : List Char) (here : Place) : Option Declaration := do
  let p ← here.demand Place.isBoundary
  let p ← p.word? "interface"
  let (_, p) ← p.run? isGap
  let (tag, p) := p.run isWord
  let p ← p.demand fun _ => isDeclareTag tag
  let p ← p.word? "("
  let (guid, p) ← quotedGuid? p
  let (written, base, p) ← (p.reach isBlank).findSome? (nameAndBase? name)
  some ⟨here.offset, p.offset, String.ofList written, formatIid (String.ofList guid),
    .declarative (String.ofList base)⟩

/-- A declaration of the name that starts here, in either form. -/
def declarationAt? (name : List Char) (here : Place) : Option Declaration :=
  classicAt? name here <|> declarativeAt? name here

/-- The leftmost declaration of a name that is not empty. -/
def firstDeclaration? (name : String) (text : List Char) : Option Declaration :=
  firstSuccess (declarationAt? name.toList) text

/-- The leftmost declaration of a name; a name is required. -/
def locate (name : String) (text : List Char) : Except LookupError (Option Declaration) :=
  if name.isEmpty then .error .nameRequired else .ok (firstDeclaration? name text)

end Header

/-- Every grammar is found by its name. -/
theorem Grammar.ofLabel_label (grammar : Grammar) : Grammar.ofLabel? grammar.label = some grammar := by
  cases grammar <;> decide

end ComLayout
