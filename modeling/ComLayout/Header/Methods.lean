import ComLayout.Header.Declaration

/-!
# Methods in a header

The methods of a classic interface stand in the struct `<Name>Vtbl`, from its name up to the word
`END_INTERFACE`:

    HRESULT ( STDMETHODCALLTYPE *QueryInterface )(

Those of a declarative interface stand between its declaration and the line that closes it:

    STDMETHOD(CreateStreamFromKey)(
    STDMETHOD_(void, GetFactory)(
    }; // interface ID2D1Resource

Where the terminator is missing the rest of the text is searched. Each method is reported with the
line on which its occurrence ends.
-/

namespace ComLayout.Header

open Text

/-- A method occurrence of the classic grammar: the method's name and the place after it. -/
def classicMethodAt? (p : Place) : Option (List Char × Place) := do
  let p ← p.word? "STDMETHODCALLTYPE"
  let p ← (p.skip isBlank).word? "*"
  let (name, p) ← (p.skip isBlank).run? isWord
  let p ← (p.skip isBlank).word? ")"
  let p ← (p.skip isBlank).word? "("
  some (name, p)

/-- A character that may stand before the comma of `STDMETHOD_`: any but a comma and parentheses. -/
def isTypeChar (c : Char) : Bool := c != ',' && c != '(' && c != ')'

/-- Whether a text of such characters is a return type: white space, then a type on one line, then white
space. -/
def isReturnType (cs : List Char) : Bool :=
  match trim cs with
  | [] => cs.any (· != '\n')
  | type => !type.contains '\n'

/-- The place at which the name of a method is announced: after `(` or after `_(` type `,`. -/
def beforeMethodName? (p : Place) : Option Place :=
  p.word? "(" <|> do
    let p ← p.word? "_("
    let (type, p) := p.run isTypeChar
    let p ← p.demand fun _ => isReturnType type
    p.word? ","

/-- A method occurrence of the declarative grammar; its line has to end with a line feed. -/
def declarativeMethodAt? (p : Place) : Option (List Char × Place) := do
  let p ← p.demand Place.isBoundary
  let p ← p.word? "STDMETHOD"
  let p ← beforeMethodName? p
  let (name, p) ← (p.skip isBlank).run? isWord
  let p ← (p.skip isBlank).word? ")"
  let p ← p.demand Place.hasLineEnd
  some (name, p)

/-- The word that ends the struct of a classic interface. -/
def classicEndAt? (p : Place) : Option Place := do
  let p ← p.demand Place.isBoundary
  let p ← p.word? "END_INTERFACE"
  p.demand Place.isBoundary

/-- The line that ends the body of a declarative interface, up to its name. -/
def declarativeEndAt? (name : List Char) (p : Place) : Option Place := do
  let p ← p.demand Place.isLineStart
  let p ← (p.skip isGap).word? "\x7d"
  let p ← (p.skip isGap).word? ";"
  let p ← (p.skip isGap).word? "//"
  let p ← (p.skip isGap).word? "interface"
  let (_, q) ← ((p.reach isGap).filter (p.offset < ·.offset)).findSome? (wholeName? name)
  some q

/-- The name of the struct that lists the methods of a classic interface, as a whole word. -/
def structNameAt? (name : String) (p : Place) : Option Place := do
  let p ← p.demand Place.isBoundary
  let p ← p.word? (name ++ "Vtbl")
  p.demand Place.isBoundary

/-- The occurrences that start before `limit`, in order and apart: after each, the search goes on
where it ends. `next` is the least offset at which the next may start. -/
def collect (read : Place → Option (List Char × Place)) (limit : Nat) :
    (next : Nat) → List Place → List (String × Nat)
  | _, [] => []
  | next, p :: rest =>
    if p.offset < next then collect read limit next rest
    else if limit ≤ p.offset then []
    else match read p with
      | some (name, q) => (String.ofList name, q.line) :: collect read limit q.offset rest
      | none => collect read limit next rest

/-- Where the terminator starts, or the length of the text if there is none. -/
def limitOf (finish : Place → Option Place) (text : List Char) (among : List Place) : Nat :=
  match leftmost finish among with
  | some (p, _) => p.offset
  | none => text.length

/-- The occurrences from an offset on, up to the terminator. -/
def occurrences (read : Place → Option (List Char × Place)) (finish : Place → Option Place)
    (text : List Char) (start : Nat) : List (String × Nat) :=
  let among := (places text).drop start
  collect read (limitOf finish text among) start among

/-- The offset after the name of the struct of a classic interface, from an offset on. -/
def structStart? (name : String) (text : List Char) (start : Nat) : Option Nat :=
  (leftmost (structNameAt? name) ((places text).drop start)).map (·.2.offset)

/-- The methods of an interface with their lines, in the order of the text, from an offset on. -/
def scanMethods (text : List Char) (start : Nat) (grammar : Grammar) (name : String) :
    List (String × Nat) :=
  match grammar with
  | .classic =>
    match structStart? name text start with
    | some start => occurrences classicMethodAt? classicEndAt? text start
    | none => []
  | .declarative =>
    occurrences declarativeMethodAt? (declarativeEndAt? name.toList) text start

end ComLayout.Header
