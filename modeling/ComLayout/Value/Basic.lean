import ComLayout.Number.Reader
import ComLayout.Number.Shortest
import ComLayout.Text.Quoted
import ComLayout.Value.Moment

/-!
# Settings values

The values that configuration files, the environment and the command line can give to a setting. A
value is taken as it comes; whether it suits a setting shows where the setting is used. A table keeps
its keys in the order of their arrival.

Every value has a text. Inside lists and tables texts are quoted and moments described, and the text
of a list or table brackets those of its members. A text in which an integer would take up more digits
than are written is refused.
-/

namespace ComLayout

open Number

/-- A value of a setting. -/
inductive Value where
  | null
  | bool (b : Bool)
  | int (n : Int)
  | real (x : Binary64)
  | text (s : String)
  | moment (m : Moment)
  | list (items : List Value)
  | table (entries : List (String × Value))
deriving Inhabited

/-- The entries of a table, in the order of their arrival. -/
abbrev Table := List (String × Value)

namespace Value

/-- Whether a value counts as true: all do but null, false, zero and what is empty. -/
def truthy : Value → Bool
  | .null => false
  | .bool b => b
  | .int n => n != 0
  | .real x => !x.isZero
  | .text s => !s.isEmpty
  | .moment _ => true
  | .list items => !items.isEmpty
  | .table entries => !entries.isEmpty

/-- The message for an integer with more digits than are read or written; where it is read, their number
is told. -/
def digitLimitMessage (digits : Option Nat) : String :=
  let told := (digits.map fun count => ": value has " ++ toString count ++ " digits").getD ""
  "Exceeds the limit (" ++ toString maxDigits ++ " digits) for integer string conversion" ++ told ++
    "; use sys.set_int_max_str_digits() to increase the limit"

/-- A value that can be looked up in a set: any but a list or a table. -/
def isKey : Value → Bool
  | .list _ => false
  | .table _ => false
  | _ => true

/-- The text of a truth value. -/
def boolText (b : Bool) : String := if b then "True" else "False"

mutual

/-- The text of a value that stands inside another. -/
def inner : Value → String
  | .null => "None"
  | .bool b => boolText b
  | .int n => toString n
  | .real x => x.toText
  | .text s => Text.quoted s
  | .moment m => m.description
  | .list items => "[" ++ String.intercalate ", " (innerItems items) ++ "]"
  | .table entries => "\x7b" ++ String.intercalate ", " (innerEntries entries) ++ "\x7d"

/-- The texts of the members of a list. -/
def innerItems : List Value → List String
  | [] => []
  | item :: rest => inner item :: innerItems rest

/-- The texts of the entries of a table. -/
def innerEntries : List (String × Value) → List String
  | [] => []
  | (key, value) :: rest => (Text.quoted key ++ ": " ++ inner value) :: innerEntries rest

end

/-- The text of a value on its own. -/
def display : Value → String
  | .text s => s
  | .moment m => m.text
  | value => value.inner

mutual

/-- Whether a value is or holds an integer with more digits than are written. -/
def holdsLongInt : Value → Bool
  | .int n => 10 ^ maxDigits ≤ n.natAbs
  | .list items => anyLongInt items
  | .table entries => anyLongEntry entries
  | _ => false

/-- Whether one of some values is or holds such an integer. -/
def anyLongInt : List Value → Bool
  | [] => false
  | item :: rest => holdsLongInt item || anyLongInt rest

/-- Whether the value of one of some entries is or holds such an integer. -/
def anyLongEntry : List (String × Value) → Bool
  | [] => false
  | (_, value) :: rest => holdsLongInt value || anyLongEntry rest

end

/-- The text of a value, unless an integer in it has too many digits. -/
def display? (value : Value) : Option String :=
  if value.holdsLongInt then none else some value.display

/-- The value of a key in a table, if the value is a table that has it. -/
def get? (value : Value) (key : String) : Option Value :=
  match value with
  | .table entries => entries.lookup key
  | _ => none

end Value

namespace Table

/-- Give a key a value; a key that is new goes to the end. -/
def put (key : String) (value : Value) : Table → Table
  | [] => [(key, value)]
  | (other, old) :: rest =>
    if other = key then (other, value) :: rest else (other, old) :: put key value rest

/-- The key has the value it was given. -/
theorem lookup_put (key : String) (value : Value) (table : Table) :
    (put key value table).lookup key = some value := by
  induction table with
  | nil => simp [put]
  | cons entry rest inductionHypothesis =>
    obtain ⟨other, old⟩ := entry
    by_cases same : other = key
    · simp [put, same]
    · have apart : (key == other) = false := by simpa using fun equal => same equal.symm
      simp [put, same, List.lookup_cons, apart, inductionHypothesis]

/-- All other keys keep theirs. -/
theorem lookup_put_of_ne (key other : String) (value : Value) (table : Table) (apart : other ≠ key) :
    (put key value table).lookup other = table.lookup other := by
  have differs : (other == key) = false := by simpa using apart
  induction table with
  | nil => simp [put, List.lookup_cons, differs]
  | cons entry rest inductionHypothesis =>
    obtain ⟨first, old⟩ := entry
    by_cases same : first = key
    · simp [put, same, List.lookup_cons, differs]
    · simp only [put, same, if_false, List.lookup_cons]
      split <;> simp [inductionHypothesis]

end Table

end ComLayout
