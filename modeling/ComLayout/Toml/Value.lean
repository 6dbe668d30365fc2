import ComLayout.Toml.Moment
import ComLayout.Toml.Nest
import ComLayout.Toml.Number

/-!
# Values and keys in TOML

A key is bare or quoted, or several of these with dots between them. A value is a text, a truth value,
an array, an inline table, a date or time, or a number. Arrays may go over several lines and end with a
comma; inline tables may not. Arrays and inline tables may stand inside one another as long as there is
room for them.
-/

namespace ComLayout.Toml

/-- A character of a bare key. -/
def isBare (c : Char) : Bool := c.isAlphanum || c == '-' || c == '_'

/-- Read one part of a key. -/
def readKeyPart (cs : List Char) : Except Fault (Taken String) :=
  let bare := cs.takeWhile isBare
  if bare.isEmpty then readLineText cs else .ok (String.ofList bare, cs.dropWhile isBare)

/-- Read a key of at most `fuel` parts, and the gaps after it. -/
def readKeyFrom : (fuel : Nat) → List Char → Except Fault (Taken (List String))
  | 0, _ => malformed
  | fuel + 1, cs => do
    let (part, rest) ← readKeyPart cs
    match skipGaps rest with
    | '.' :: rest =>
      let (parts, rest) ← readKeyFrom fuel (skipGaps rest)
      .ok (part :: parts, rest)
    | rest => .ok ([part], rest)

/-- Read a key of at most `fuel` parts, the equals sign behind it, and the gaps after that. -/
def readKeyEquals (fuel : Nat) (cs : List Char) : Except Fault (Taken (List String)) := do
  let (key, rest) ← readKeyFrom fuel cs
  .ok (key, skipGaps (← expect '=' rest))

/-- Read a value that holds no other values. -/
def readScalar (cs : List Char) : Except Fault (Taken Value) :=
  match cs with
  | '"' :: _ => (readText cs).map fun (text, rest) => (.text text, rest)
  | '\'' :: _ => (readText cs).map fun (text, rest) => (.text text, rest)
  | 't' :: 'r' :: 'u' :: 'e' :: rest => .ok (.bool true, rest)
  | 'f' :: 'a' :: 'l' :: 's' :: 'e' :: rest => .ok (.bool false, rest)
  | _ =>
    match moment? cs with
    | some reading => reading.map fun (moment, rest) => (.moment moment, rest)
    | none => readNumber cs

/-- The room for values inside one another. -/
def valueRoom : Nat := 980

/-- The room that an array takes up. -/
def arrayRoom : Nat := 2

/-- The room that an inline table takes up. -/
def tableRoom : Nat := 3

/-- What is left of some room. -/
def roomLeft (room taken : Nat) : Except Fault Nat :=
  if room < taken then .error .tooDeep else .ok (room - taken)

mutual

/-- Read a value. The fuel bounds the number of steps, and the room the depth of the value. -/
def readValueFrom : (fuel room : Nat) → List Char → Except Fault (Taken Value)
  | 0, _, _ => malformed
  | fuel + 1, room, cs =>
    match cs with
    | '[' :: rest => do
      let room ← roomLeft room arrayRoom
      match ← skipSpacing rest with
      | ']' :: rest => .ok (.list [], rest)
      | rest =>
        let (items, rest) ← readItems fuel room rest
        .ok (.list items, rest)
    | '\x7b' :: rest => do
      let room ← roomLeft room tableRoom
      match skipGaps rest with
      | '\x7d' :: rest => .ok (.table [], rest)
      | rest =>
        let (entries, rest) ← readEntries fuel room [] rest
        .ok (.table (Nest.toTable entries), rest)
    | _ => readScalar cs

/-- Read the items of an array, at least one, up to its end. -/
def readItems : (fuel room : Nat) → List Char → Except Fault (Taken (List Value))
  | 0, _, _ => malformed
  | fuel + 1, room, cs => do
    let (item, rest) ← readValueFrom fuel room cs
    match ← skipSpacing rest with
    | ']' :: rest => .ok ([item], rest)
    | ',' :: rest =>
      match ← skipSpacing rest with
      | ']' :: rest => .ok ([item], rest)
      | rest =>
        let (items, rest) ← readItems fuel room rest
        .ok (item :: items, rest)
    | _ => malformed

/-- Read the entries of an inline table, at least one, up to its end. -/
def readEntries : (fuel room : Nat) → Nest → List Char → Except Fault (Taken Nest)
  | 0, _, _, _ => malformed
  | fuel + 1, room, nest, cs => do
    let (key, rest) ← readKeyEquals (fuel + 1) cs
    let (value, rest) ← readValueFrom fuel room rest
    match nest.assign 0 value key, skipGaps rest with
    | some nest, '\x7d' :: rest => .ok (nest, rest)
    | some nest, ',' :: rest => readEntries fuel room nest (skipGaps rest)
    | _, _ => malformed

end

/-- Read a value from a text of at most `size` characters. Each step takes up a character, or is followed
by one that does. -/
def readValue (size : Nat) (cs : List Char) : Except Fault (Taken Value) :=
  readValueFrom (2 * size + 2) valueRoom cs

end ComLayout.Toml
