import ComLayout.Value.Basic

/-!
# Tables in the making

While a document is read, a table stands for itself and knows how it came about. An implied table was
passed by a header and may still be declared or entered by dotted keys. A table that dotted keys made or
entered may be entered by further dotted keys of the same section only. A declared table may be entered
by headers of tables inside it only. A series is an array of tables, of which the last one is entered.
A value is closed: nothing is put into it.
-/

namespace ComLayout.Toml

/-- How a table came about. -/
inductive Standing where
  | implied
  | dotted (section_ : Nat)
  | declared
deriving DecidableEq, Repr

/-- Whether dotted keys of a section may enter a table. -/
def Standing.admits (standing : Standing) (section_ : Nat) : Bool :=
  match standing with
  | .implied => true
  | .dotted other => other == section_
  | .declared => false

/-- What a key leads to while a document is read. -/
inductive Node where
  | value (v : Value)
  | table (standing : Standing) (entries : List (String × Node))
  | series (earlier : List (List (String × Node))) (latest : List (String × Node))

/-- The entries of a table in the making, in the order of their arrival. -/
abbrev Nest := List (String × Node)

namespace Nest

/-- Give a key a node; a key that is new goes to the end. -/
def put (key : String) (node : Node) : Nest → Nest
  | [] => [(key, node)]
  | (other, old) :: rest =>
    if other = key then (other, node) :: rest else (other, old) :: put key node rest

/-- Give a dotted key a value. The key must be new, and its tables must admit the section. -/
def assign (section_ : Nat) (value : Value) : (key : List String) → Nest → Option Nest
  | [], _ => none
  | [name], nest => if (nest.lookup name).isSome then none else some (nest.put name (.value value))
  | name :: more, nest =>
    match nest.lookup name with
    | none => do
      let inner ← assign section_ value more []
      some (nest.put name (.table (.dotted section_) inner))
    | some (.table standing entries) =>
      if standing.admits section_ then do
        let inner ← assign section_ value more entries
        some (nest.put name (.table (.dotted section_) inner))
      else none
    | some _ => none

/-- Change the table to which names lead; tables that are missing are implied. -/
def within (change : Nest → Option Nest) : (names : List String) → Nest → Option Nest
  | [], nest => change nest
  | name :: more, nest =>
    match nest.lookup name with
    | none => do
      let inner ← within change more []
      some (nest.put name (.table .implied inner))
    | some (.table standing entries) => do
      let inner ← within change more entries
      some (nest.put name (.table standing inner))
    | some (.series earlier latest) => do
      let inner ← within change more latest
      some (nest.put name (.series earlier inner))
    | some (.value _) => none

/-- Declare the table of a name, which must be new or implied. -/
def declare (name : String) (nest : Nest) : Option Nest :=
  match nest.lookup name with
  | none => some (nest.put name (.table .declared []))
  | some (.table .implied entries) => some (nest.put name (.table .declared entries))
  | some _ => none

/-- Begin the next table of the series of a name, which must be new or a series. -/
def extend (name : String) (nest : Nest) : Option Nest :=
  match nest.lookup name with
  | none => some (nest.put name (.series [] []))
  | some (.series earlier latest) => some (nest.put name (.series (earlier ++ [latest]) []))
  | some _ => none

end Nest

mutual

/-- The value of a finished node. -/
def Node.toValue : Node → Value
  | .value v => v
  | .table _ entries => .table (Nest.toTable entries)
  | .series earlier latest => .list (Nest.toTables earlier ++ [.table (Nest.toTable latest)])

/-- The table of finished entries. -/
def Nest.toTable : List (String × Node) → List (String × Value)
  | [] => []
  | (key, node) :: rest => (key, node.toValue) :: Nest.toTable rest

/-- The tables of a finished series. -/
def Nest.toTables : List (List (String × Node)) → List Value
  | [] => []
  | entries :: rest => .table (Nest.toTable entries) :: Nest.toTables rest

end

end ComLayout.Toml
