import ComLayout.Text.Split

/-!
# Paths

A path is spelled as components separated by slashes. Reading a spelling drops empty components and
single dots and keeps the rest as written, `..` included: a path is not resolved. Leading slashes
anchor it; exactly two of them anchor it apart from one or from more than two.
-/

namespace ComLayout

/-- Where a path begins: at the working directory, at the root, or at the root spelled with two
slashes. -/
inductive Anchor where
  | none
  | root
  | doubleRoot
deriving DecidableEq, Repr

/-- The slashes that spell an anchor. -/
def Anchor.spelling : Anchor → String
  | .none => ""
  | .root => "/"
  | .doubleRoot => "//"

/-- A path: its anchor and its components. -/
structure Path where
  anchor : Anchor
  names : List String
deriving DecidableEq, Repr

namespace Path

/-- The pieces of a spelling between its slashes. -/
def pieces (spelling : List Char) : List (List Char) := Text.split '/' spelling

/-- Whether a piece of a spelling names a component. -/
def isComponent (piece : List Char) : Bool := piece != [] && piece != ['.']

/-- The anchor that the leading slashes spell. -/
def anchorOf (cs : List Char) : Anchor :=
  match (cs.takeWhile (· == '/')).length with
  | 0 => .none
  | 2 => .doubleRoot
  | _ => .root

/-- The path that a text spells. -/
def ofString (s : String) : Path :=
  ⟨anchorOf s.toList, ((pieces s.toList).filter isComponent).map String.ofList⟩

/-- The spelling of a path; the path without components is spelled as its anchor or as a dot. -/
def toString (p : Path) : String :=
  match p.anchor, p.names with
  | .none, [] => "."
  | anchor, names => anchor.spelling ++ String.intercalate "/" names

/-- The components, with the anchor as the first if there is one. -/
def parts (p : Path) : List String :=
  if p.anchor = .none then p.names else p.anchor.spelling :: p.names

/-- The path without its last component. -/
def parent (p : Path) : Path := { p with names := p.names.dropLast }

/-- The last component, empty if there is none. -/
def name (p : Path) : String := p.names.getLast?.getD ""

/-- A path relative to this one, appended. -/
def append (p : Path) (names : List String) : Path := { p with names := p.names ++ names }

/-- Paths are ordered by their parts, each by code points. -/
def before (p q : Path) : Bool := decide (p.parts < q.parts)

/-- The components that lead from a root path to this one, if its parts begin with those of the
root. -/
def under? (root p : Path) : Option (List String) :=
  if root.anchor = p.anchor ∧ root.names.isPrefixOf p.names then some (p.names.drop root.names.length)
  else none

end Path

end ComLayout
