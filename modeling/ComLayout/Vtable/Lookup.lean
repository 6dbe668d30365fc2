import ComLayout.Discovery
import ComLayout.Header.Methods
import ComLayout.Log
import ComLayout.Text.LineEnds
import ComLayout.Text.Utf8
import ComLayout.Vtable.Basic

/-!
# Looking up a vtable

The headers that a pattern leads to are read in order up to the first that declares the interface. A
classic declaration lists all slots itself. A declarative one lists its own slots only: those of its
base come first, and the base is looked up in the same header, up to the root interface, whose slots
are known. A base chain that comes back to a name, or that is longer than the limit, does not end.

A lookup tells what it does by events: each header it is about to read, remarks for the log, and at
the end, whatever the outcome, that it is over. A header is read anew each time it is needed, and what
stands in it may depend on what was told before: a log that is kept in a header grows with the remarks.
-/

namespace ComLayout

open Glob

/-- What a lookup tells on its way. -/
inductive LookupEvent where
  | reading (path : String)
  | remark (record : LogRecord)
  | over
deriving DecidableEq, Repr

/-- Why a search has no result: the lookup failed, or headers could not be listed. -/
inductive SearchFault where
  | lookup (error : LookupError)
  | discovery (fault : DiscoveryFault)
deriving DecidableEq, Repr

/-- A computation that tells events and may fail. -/
abbrev Search := ExceptT SearchFault (StateM (List LookupEvent))

namespace Search

/-- Tell an event. -/
def tell (event : LookupEvent) : Search Unit := modify (· ++ [event])

/-- Fail with a lookup error. -/
def refuse {α : Type} (error : LookupError) : Search α := throw (.lookup error)

/-- A remark of the lookup itself. -/
def remark (text : String) : Search Unit :=
  tell (.remark ⟨.debug, "vtabscan.vtable.resolver", text⟩)

/-- The outcome of a search and the events it told. -/
def outcome {α : Type} (search : Search α) : Except SearchFault α × List LookupEvent :=
  search.run.run []

end Search

namespace Lookup

open Search Text Header

/-- The most interfaces that a base chain may hold. -/
def maxChain : Nat := 32

/-- How headers are read: the bytes of a header after what was told. -/
abbrev Reading := List LookupEvent → Candidate → ByteArray

/-- Reading the headers of a tree that does not change. -/
def Reading.ofTree (tree : Tree) : Reading := fun _ c => (tree.contents? c.place).getD ByteArray.empty

/-- The text of a header's bytes: UTF-8 with malformed bytes left out and line ends unified. -/
def textOf (bytes : ByteArray) : List Char := unifyLineEnds (decodeLossy bytes.data.toList)

/-- The slots that a declaration lists itself, numbered from `first`. -/
def ownMethods (text : List Char) (decl : Declaration) (first : Nat) : List Method :=
  (scanMethods text decl.stop decl.form.grammar decl.name).mapIdx fun i (name, line) =>
    ⟨(first + i : Nat), name, some (line : Int), decl.name, some decl.iid⟩

/-- A remark if the struct that lists the methods of a classic interface is missing. -/
def remarkMissingStruct (text : List Char) (decl : Declaration) : Search Unit :=
  if decl.form.grammar = .classic ∧ (structStart? decl.name text decl.stop).isNone then
    tell (.remark ⟨.debug, "vtabscan.parsing.methods",
      "No " ++ decl.name ++ "Vtbl struct after offset " ++ toString decl.stop⟩)
  else pure ()

/-- A declaration and the text of the header in which it stands. -/
structure Found where
  text : List Char
  decl : Declaration

/-- Put the slots that a declaration lists behind the inherited ones. -/
def assemble (path : String) (found : Found) (inherited : List Method) : Search (List Method) := do
  let own := ownMethods found.text found.decl inherited.length
  remarkMissingStruct found.text found.decl
  remark (found.decl.name ++ " in " ++ path ++ ": " ++ toString inherited.length ++ " inherited, " ++
    toString own.length ++ " own (" ++ found.decl.form.grammar.label ++ " grammar)")
  pure (inherited ++ own)

/-- Read a header and look for a declaration in it. -/
def inspect (reading : Reading) (c : Candidate) (name : String) : Search (Option Found) := do
  tell (.reading c.path.toString)
  let text := textOf (reading (← get) c)
  match firstDeclaration? name text with
  | some decl => pure (some ⟨text, decl⟩)
  | none =>
    remark (c.path.toString ++ ": no declaration of " ++ name)
    pure none

/-- All slots of a declaration. The chain holds the names requested so far, in lower case, and the
budget is the number of further requests that it admits. -/
def layout (reading : Reading) (c : Candidate) : (budget : Nat) → (chain : List String) → Found →
    Search (List Method)
  | budget, chain, found =>
    match found.decl.form with
    | .classic => assemble c.path.toString found []
    | .declarative base =>
      if base = Vtable.rootInterface then assemble c.path.toString found Vtable.rootMethods
      else
        let key := lowerString base
        if key ∈ chain then refuse (.inheritanceCycle (chain ++ [key]))
        else match budget with
          | 0 => refuse (.inheritanceCycle (chain ++ [key]))
          | budget + 1 => do
            match ← inspect reading c base with
            | none => refuse (.baseUnresolved found.decl.name base c.path.toString)
            | some baseFound =>
              let inherited ← layout reading c budget (chain ++ [key]) baseFound
              assemble c.path.toString found inherited

/-- The vtable of an interface from the first of some headers that declares it. -/
def firstIn (reading : Reading) (name : String) : List Candidate → Search (Option Vtable)
  | [] => pure none
  | c :: rest => do
    match ← inspect reading c name with
    | none => firstIn reading name rest
    | some found =>
      let methods ← layout reading c (maxChain - 1) [lowerString name] found
      pure (some ⟨found.decl.name, methods, some c.path.toString⟩)

/-- The headers to search for what is requested, of which there has to be at least one. -/
def candidates (tree : Tree) (requested pattern : String) (recurse : Bool) (filter : Filter) :
    Search (List Candidate) := do
  match Discovery.discover tree pattern recurse filter with
  | .error fault => throw (.discovery fault)
  | .ok [] => refuse (.noMatchingFiles pattern)
  | .ok found =>
    remark ("Searching " ++ toString found.length ++ " header(s) for " ++ requested)
    pure found

/-- Search the headers that a pattern leads to. -/
def search (tree : Tree) (reading : Reading) (name pattern : String) (recurse : Bool)
    (filter : Filter) : Search Vtable := do
  let found ← candidates tree name pattern recurse filter
  match ← firstIn reading name found with
  | some vtable => pure vtable
  | none => refuse (.interfaceNotFound name pattern found.length)

/-- Run a search and tell that it is over, whatever its outcome. -/
def concluded {α : Type} (s : Search α) : Except SearchFault α × List LookupEvent :=
  let (result, events) := s.outcome
  (result, events ++ [.over])

/-- The vtable of an interface, and the events of its lookup, where headers are read as given. Without
a name there is no lookup. -/
def findReading (tree : Tree) (reading : Reading) (name pattern : String) (recurse : Bool)
    (filter : Filter) : Except SearchFault Vtable × List LookupEvent :=
  if name.isEmpty then (.error (.lookup .nameRequired), [])
  else concluded (search tree reading name pattern recurse filter)

/-- The vtable of an interface, and the events of its lookup in a tree that does not change. -/
def find (tree : Tree) (name pattern : String) (recurse : Bool) (filter : Filter) :
    Except SearchFault Vtable × List LookupEvent :=
  findReading tree (Reading.ofTree tree) name pattern recurse filter

end Lookup

end ComLayout
