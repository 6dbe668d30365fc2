import ComLayout.Text.LineEnds
import ComLayout.Toml.Value

/-!
# TOML documents

A document is a sequence of statements, each on lines of its own: headers of tables and of elements of
arrays of tables, and keys with their values. A header begins a section; the keys that follow belong to
its table. What is wrong with a document is the first thing that is wrong with a statement.
-/

namespace ComLayout.Toml

/-- A statement of a document. -/
inductive Statement where
  | table (key : List String)
  | element (key : List String)
  | entry (key : List String) (value : Value)

/-- Read a statement, if there is one before the end of the line or a comment, from a text of at most
`size` characters. -/
def readStatement (size : Nat) (cs : List Char) : Except Fault (Taken (Option Statement)) :=
  match cs with
  | '[' :: '[' :: rest => do
    let (key, rest) ← readKeyFrom size (skipGaps rest)
    .ok (some (.element key), ← expect ']' (← expect ']' rest))
  | '[' :: rest => do
    let (key, rest) ← readKeyFrom size (skipGaps rest)
    .ok (some (.table key), ← expect ']' rest)
  | '#' :: _ => .ok (none, cs)
  | '\n' :: _ => .ok (none, cs)
  | [] => .ok (none, [])
  | _ => do
    let (key, rest) ← readKeyEquals size cs
    let (value, rest) ← readValue size rest
    .ok (some (.entry key value), rest)

/-- Read a statement and go to the next line. -/
def readLine (size : Nat) (cs : List Char) : Except Fault (Taken (Option Statement)) := do
  let (statement, rest) ← readStatement size (skipGaps cs)
  match ← skipComment (skipGaps rest) with
  | [] => .ok (statement, [])
  | '\n' :: rest => .ok (statement, rest)
  | _ => malformed

/-- Read statements as long as there are any and no fault stops it, from a text of at most `size`
characters. Each line takes up a character. -/
def statementsFrom : (size : Nat) → List Char → List Statement × Option Fault
  | _, [] => ([], none)
  | 0, _ => ([], some .malformed)
  | size + 1, cs =>
    match readLine (size + 1) cs with
    | .error fault => ([], some fault)
    | .ok (statement, rest) =>
      let (more, fault) := statementsFrom size rest
      (statement.toList ++ more, fault)

/-- The statements of a text, up to the first fault. -/
def statements (cs : List Char) : List Statement × Option Fault := statementsFrom cs.length cs

/-- A document in the making: its entries, the header of the current section and its number. -/
structure Draft where
  root : Nest
  header : List String
  section_ : Nat

/-- The document before its first statement. -/
def Draft.start : Draft := ⟨[], [], 0⟩

/-- Begin a section with a header, which changes the table that holds the last name of its key. -/
def Draft.begin_ (draft : Draft) (change : String → Nest → Option Nest) (key : List String) :
    Option Draft := do
  let name ← key.getLast?
  let root ← draft.root.within (change name) key.dropLast
  some ⟨root, key, draft.section_ + 1⟩

/-- Add a statement to a document. -/
def Draft.add (draft : Draft) : Statement → Option Draft
  | .table key => draft.begin_ Nest.declare key
  | .element key => draft.begin_ Nest.extend key
  | .entry key value => do
    let root ← draft.root.within (Nest.assign draft.section_ value key) draft.header
    some { draft with root }

/-- Read a document. -/
def parse (text : List Char) : Except Fault Table :=
  let (found, fault) := statements (Text.joinLinePairs text)
  match found.foldlM Draft.add Draft.start, fault with
  | none, _ => malformed
  | some _, some fault => .error fault
  | some draft, none => .ok (Nest.toTable draft.root)

end ComLayout.Toml
