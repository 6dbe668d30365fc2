import ComLayout.Settings.Reading

/-!
# Settings from the environment

A variable whose name begins with `VTABSCAN_` gives a setting. The rest of its name in lower case,
split at double underscores, leads to the setting through nested tables, which are made as needed. A
value that is not a table has nothing below it.
-/

namespace ComLayout

open Text

/-- Why a variable has no place: it lies directly below a value that is not a table, or deeper. -/
inductive EnvironmentFault where
  | below
  | deepBelow
deriving DecidableEq, Repr

namespace Environment

/-- The beginning of the names that give settings. -/
def lead : List Char := "VTABSCAN_".toList

/-- Cut a name at each double underscore, from the left. -/
def splitDouble : List Char → List (List Char)
  | [] => [[]]
  | '_' :: '_' :: rest => [] :: splitDouble rest
  | c :: rest => extendFirst c (splitDouble rest)

/-- The keys to which the name of a variable leads. -/
def keysOf? (name : List Char) : Option (List String) :=
  if lead.isPrefixOf name then
    some ((splitDouble (lowerText (name.drop lead.length))).map String.ofList)
  else none

/-- Put a value where keys lead. -/
def insert (value : Value) : (keys : List String) → Table → Except EnvironmentFault Table
  | [], table => .ok table
  | [key], table => .ok (Table.put key value table)
  | key :: keys, table =>
    match table.lookup key with
    | none => do .ok (Table.put key (.table (← insert value keys [])) table)
    | some (.table inner) => do .ok (Table.put key (.table (← insert value keys inner)) table)
    | some _ => .error (if keys.length = 1 then .below else .deepBelow)

/-- The settings that variables give, from the first to the last. -/
def layerFrom (table : Table) : List (String × String) → Except EnvironmentFault Table
  | [] => .ok table
  | (name, raw) :: rest =>
    match keysOf? name.toList with
    | none => layerFrom table rest
    | some keys => do layerFrom (← insert (Value.ofText raw) keys table) rest

/-- The settings that variables give. -/
def layer (environment : List (String × String)) : Except EnvironmentFault Table :=
  layerFrom [] environment

end Environment

end ComLayout
