import ComLayout.Toml.Reading

/-!
# Quoted TOML texts

A literal text stands between apostrophes and holds no escapes. A basic text stands between quotes and
may hold escapes. Either kind may also stand as a block between three of its marks: a block may hold
line feeds, drops a line feed at its start, and up to two more of its marks may stand before the three
that close it. In a basic block, a backslash at the end of a line joins it with what follows.
-/

namespace ComLayout.Toml

open Text

/-- A character that may not stand in a text; line feeds may stand in blocks. -/
def isForbidden (block : Bool) (c : Char) : Bool := isControl c && !(block && c == '\n')

/-- Put characters in front of what a reading gives. -/
def ahead (front : List Char) (reading : Except Fault (Taken (List Char))) :
    Except Fault (Taken (List Char)) :=
  reading.map fun (read, rest) => (front ++ read, rest)

/-- The marks that stand here, at most two. -/
def spareMarks (mark : Char) : List Char → List Char × List Char
  | a :: b :: rest =>
    if a == mark && b == mark then ([a, b], rest)
    else if a == mark then ([a], b :: rest)
    else ([], a :: b :: rest)
  | [a] => if a == mark then ([a], []) else ([], [a])
  | [] => ([], [])

/-- Whether three marks stand here. -/
def hasThree (mark : Char) : List Char → Bool
  | a :: b :: c :: _ => a == mark && b == mark && c == mark
  | _ => false

/-- Read a literal text behind its opening apostrophe. -/
def readLiteral : List Char → Except Fault (Taken (List Char))
  | [] => malformed
  | c :: rest =>
    if c == '\'' then .ok ([], rest)
    else if isForbidden false c then malformed
    else ahead [c] (readLiteral rest)

/-- Read a literal block behind its opening. -/
def readLiteralBlock : List Char → Except Fault (Taken (List Char))
  | [] => malformed
  | c :: rest =>
    if hasThree '\'' (c :: rest) then .ok (spareMarks '\'' (rest.drop 2))
    else if isForbidden true c then malformed
    else ahead [c] (readLiteralBlock rest)

/-- The value of a hexadecimal digit. -/
def hexValue? (c : Char) : Option Nat :=
  if c.isDigit then some (c.toNat - 48)
  else if 'a' ≤ c ∧ c ≤ 'f' then some (c.toNat - 87)
  else if 'A' ≤ c ∧ c ≤ 'F' then some (c.toNat - 55)
  else none

/-- The value of hexadecimal digits. -/
def hexNumber? (digits : List Char) : Option Nat :=
  digits.foldlM (fun n c => (hexValue? c).map (16 * n + ·)) 0

/-- The character for some hexadecimal digits, if it is a Unicode scalar value. -/
def scalar? (width : Nat) (cs : List Char) : Option (List Char × Nat) :=
  let digits := cs.take width
  if digits.length = width then do
    let n ← hexNumber? digits
    if n < 0xD800 ∨ (0xDFFF < n ∧ n < 0x110000) then some ([Char.ofNat n], width + 1) else none
  else none

/-- The escapes of a single character. -/
def plainEscape? : Char → Option Char
  | 'b' => some '\x08'
  | 't' => some '\t'
  | 'n' => some '\n'
  | 'f' => some '\x0c'
  | 'r' => some '\r'
  | '"' => some '"'
  | '\\' => some '\\'
  | _ => none

/-- A joint of lines behind a backslash: the number of characters that it passes over. -/
def joint? (cs : List Char) : Option Nat :=
  match cs.dropWhile isGap with
  | '\n' :: rest => some ((cs.takeWhile isGap).length + 1 + (rest.takeWhile isSpacing).length)
  | _ => none

/-- What stands behind a backslash: the characters it stands for, and how many it takes up. -/
def escape? (block : Bool) : List Char → Option (List Char × Nat)
  | [] => none
  | c :: rest =>
    if block && isSpacing c then (joint? (c :: rest)).map (([], ·))
    else if c == 'u' then scalar? 4 rest
    else if c == 'U' then scalar? 8 rest
    else (plainEscape? c).map fun d => ([d], 1)

/-- Read a basic text or block behind its opening, after passing over `skip` characters. -/
def readBasicFrom (block : Bool) : (skip : Nat) → List Char → Except Fault (Taken (List Char))
  | _, [] => malformed
  | skip + 1, _ :: rest => readBasicFrom block skip rest
  | 0, c :: rest =>
    if c == '"' && !block then .ok ([], rest)
    else if c == '"' && hasThree '"' (c :: rest) then .ok (spareMarks '"' (rest.drop 2))
    else if c == '\\' then
      match escape? block rest with
      | some (meant, taken) => ahead meant (readBasicFrom block taken rest)
      | none => malformed
    else if isForbidden block c then malformed
    else ahead [c] (readBasicFrom block 0 rest)

/-- Drop the line feed at the start of a block. -/
def dropFirstLineFeed : List Char → List Char
  | '\n' :: rest => rest
  | cs => cs

/-- Read a text that begins with its mark and may be a block. -/
def readText (cs : List Char) : Except Fault (Taken String) :=
  let found : Except Fault (Taken (List Char)) :=
    if hasThree '"' cs then readBasicFrom true 0 (dropFirstLineFeed (cs.drop 3))
    else if hasThree '\'' cs then readLiteralBlock (dropFirstLineFeed (cs.drop 3))
    else if cs.head? = some '"' then readBasicFrom false 0 cs.tail
    else if cs.head? = some '\'' then readLiteral cs.tail
    else malformed
  found.map fun (text, rest) => (String.ofList text, rest)

/-- Read a text that begins with its mark and is no block. -/
def readLineText (cs : List Char) : Except Fault (Taken String) :=
  let found : Except Fault (Taken (List Char)) :=
    if cs.head? = some '"' then readBasicFrom false 0 cs.tail
    else if cs.head? = some '\'' then readLiteral cs.tail
    else malformed
  found.map fun (text, rest) => (String.ofList text, rest)

end ComLayout.Toml
