import ComLayout.Text.CaseFree
import ComLayout.Text.Word

/-!
# Places in a text

A place lies between two characters of a text, at its start or at its end. It knows how many characters
precede it, on which line it lies, the character before it and the text after it. Reading moves from
place to place; a reader that returns a place has read what lies between the two. `places` lists all
places of a text in order, so that the leftmost success of a reader is the first success in that list.
-/

namespace ComLayout.Text

/-- A place in a text. Lines count from one. -/
structure Place where
  offset : Nat
  line : Nat
  before : Option Char
  rest : List Char
deriving DecidableEq, Repr

namespace Place

/-- The first place of a text. -/
def start (text : List Char) : Place := ⟨0, 1, none, text⟩

/-- The place after the character `c`, before the text `rest`. -/
def after (p : Place) (c : Char) (rest : List Char) : Place :=
  ⟨p.offset + 1, if c == '\n' then p.line + 1 else p.line, some c, rest⟩

/-- Pass over characters as long as they meet the condition. -/
def skipFrom (p : Place) (cond : Char → Bool) : List Char → Place
  | [] => p
  | c :: rest => if cond c then skipFrom (p.after c rest) cond rest else p

/-- The first place at which the next character does not meet the condition. -/
def skip (p : Place) (cond : Char → Bool) : Place := skipFrom p cond p.rest

/-- The longest run of characters that meet the condition, and the place after it. -/
def run (p : Place) (cond : Char → Bool) : List Char × Place :=
  (p.rest.takeWhile cond, p.skip cond)

/-- A run that is not empty. -/
def run? (p : Place) (cond : Char → Bool) : Option (List Char × Place) :=
  match p.run cond with
  | ([], _) => none
  | found => some found

/-- Pass over characters that stand in the relation to those of a word, one by one. -/
def spelledFrom (p : Place) (same : Char → Char → Bool) : List Char → List Char → Option Place
  | [], _ => some p
  | _ :: _, [] => none
  | w :: word, c :: rest =>
    if same w c then spelledFrom (p.after c rest) same word rest else none

/-- The place after a word, which has to stand here letter by letter. -/
@[inline] def word? (p : Place) (word : String) : Option Place :=
  spelledFrom p (fun a b => a == b) word.toList p.rest

/-- The place after a name, which has to stand here up to case, and the name as it stands here. -/
def name? (p : Place) (name : List Char) : Option (List Char × Place) :=
  (spelledFrom p sameLetter name p.rest).map fun q => (p.rest.take name.length, q)

/-- A word boundary lies here. -/
def isBoundary (p : Place) : Bool := Text.isBoundary p.before p.rest.head?

/-- A line begins here. -/
def isLineStart (p : Place) : Bool := p.before == none || p.before == some '\n'

/-- A line end lies ahead. -/
def hasLineEnd (p : Place) : Bool := p.rest.contains '\n'

/-- This place if the condition holds. -/
def demand (p : Place) (cond : Place → Bool) : Option Place := if cond p then some p else none

/-- The places reached by passing over characters that meet the condition, the farthest first, and after
them those that were reached before. -/
def reachFrom (nearer : List Place) (p : Place) (cond : Char → Bool) : List Char → List Place
  | [] => p :: nearer
  | c :: rest =>
    if cond c then reachFrom (p :: nearer) (p.after c rest) cond rest else p :: nearer

/-- All places reached by passing over a run of such characters or a part of it, the farthest first. -/
def reach (p : Place) (cond : Char → Bool) : List Place := reachFrom [] p cond p.rest

/-- This place and all places after it, where `rest` is the text after this place. -/
def onward (p : Place) : (rest : List Char) → List Place
  | [] => [p]
  | c :: rest => p :: onward (p.after c rest) rest

/-- What a reader reads at the first place at which it succeeds, from this place on, where `rest` is the
text after this place. -/
@[specialize] def firstOnward {α : Type} (read : Place → Option α) (p : Place) :
    (rest : List Char) → Option α
  | [] => read p
  | c :: rest =>
    match read p with
    | some found => some found
    | none => firstOnward read (p.after c rest) rest

end Place

/-- All places of a text in order: one before each character and one at the end. -/
def places (text : List Char) : List Place := (Place.start text).onward text

/-- What a reader reads at the first place of a text at which it succeeds. -/
@[inline] def firstSuccess {α : Type} (read : Place → Option α) (text : List Char) : Option α :=
  (Place.start text).firstOnward read text

/-- The first place in the list at which the reader succeeds, with what it read. -/
def leftmost {α : Type} (read : Place → Option α) (among : List Place) : Option (Place × α) :=
  among.findSome? fun p => (read p).map (p, ·)

/-- A text has one more place than characters. -/
theorem onward_length (p : Place) (rest : List Char) : (p.onward rest).length = rest.length + 1 := by
  induction rest generalizing p with
  | nil => rfl
  | cons c rest inductionHypothesis => simp [Place.onward, inductionHypothesis]

/-- The listed places have consecutive offsets. -/
theorem onward_offsets (p : Place) (rest : List Char) :
    (p.onward rest).map (·.offset) = List.range' p.offset (rest.length + 1) := by
  induction rest generalizing p with
  | nil => rfl
  | cons c rest inductionHypothesis =>
    rw [Place.onward, List.map_cons, inductionHypothesis]
    rfl

/-- The first success from a place on is the first success in the list of these places. -/
theorem firstOnward_eq {α : Type} (read : Place → Option α) (p : Place) (rest : List Char) :
    p.firstOnward read rest = (p.onward rest).findSome? read := by
  induction rest generalizing p with
  | nil => cases found : read p <;> simp [Place.firstOnward, Place.onward, found]
  | cons c rest inductionHypothesis =>
    cases found : read p <;>
      simp [Place.firstOnward, Place.onward, found, inductionHypothesis]

end ComLayout.Text
