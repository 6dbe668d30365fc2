import ComLayout.CommandLine.Grammar
import ComLayout.Text.DecimalDigit

/-!
# The words of a command line

A word is an operand unless it begins with a hyphen. It is an operand all the same if it is a lone
hyphen, or if no flag answers to it and it spells a negative number or holds a space. A long flag may be
cut short as long as only one flag begins so; its value may stand behind an equals sign. Short flags may
be written together, with the value of the last one. Behind two lone hyphens all words are operands.
-/

namespace ComLayout.CommandLine

open Text

/-- A word: an operand, the two lone hyphens, a flag as it was spelled with what stands behind its
name in the same word, or a flag that the command does not know. -/
inductive Word where
  | operand (text : String)
  | marker
  | flag (flag : Flag) (short : Bool) (attached : Option (List Char))
  | unknown (text : String)
deriving DecidableEq, Repr

/-- The flag of a spelling, and whether that is the short one. -/
def Grammar.named? (grammar : Grammar) (spelling : List Char) : Option (Flag × Bool) :=
  grammar.flags.findSome? fun flag =>
    if flag.shortSpelling? = some (String.ofList spelling) then some (flag, true)
    else if flag.longSpelling = String.ofList spelling then some (flag, false)
    else none

/-- Cut a word at its first equals sign. -/
def cutEquals (cs : List Char) : List Char × Option (List Char) :=
  match cs.dropWhile (· != '=') with
  | _ :: value => (cs.takeWhile (· != '='), some value)
  | [] => (cs, none)

/-- The flags that a word may mean beside its exact name, with their spellings. -/
def Grammar.readings (grammar : Grammar) (cs : List Char) : List (String × Word) :=
  match cs with
  | '-' :: '-' :: _ =>
    let (name, attached) := cutEquals cs
    (grammar.flags.filter fun flag => name.isPrefixOf flag.longSpelling.toList).map
      fun flag => (flag.longSpelling, .flag flag false attached)
  | '-' :: c :: rest =>
    (grammar.flags.filter fun flag => flag.short == some c).map
      fun flag => (flag.shortSpelling?.getD "", .flag flag true (some rest))
  | _ => []

/-- A decimal digit of any script. -/
def isDecimal (c : Char) : Bool := (digitValue? c).isSome

/-- Decimal digits, at least one. -/
def areDigits (cs : List Char) : Bool := !cs.isEmpty && cs.all isDecimal

/-- A negative integer or decimal fraction; a line feed may follow it. -/
def isNegativeNumber : List Char → Bool
  | '-' :: body =>
    let body := if body.getLast? = some '\n' then body.dropLast else body
    areDigits body ||
      match body.dropWhile isDecimal with
      | '.' :: fraction => areDigits fraction
      | _ => false
  | _ => false

/-- The word of a text that begins with a hyphen and is not the name of a flag. -/
def Grammar.unnamed (grammar : Grammar) (text : String) : Except Fault Word :=
  let cs := text.toList
  match grammar.readings cs with
  | [(_, word)] => .ok word
  | [] => .ok (if isNegativeNumber cs || cs.contains ' ' then .operand text else .unknown text)
  | several => .error (.ambiguous text (several.map Prod.fst))

/-- The word of a text. -/
def Grammar.word (grammar : Grammar) (text : String) : Except Fault Word :=
  let cs := text.toList
  if cs.head? ≠ some '-' ∨ cs.length = 1 then .ok (.operand text)
  else match grammar.named? cs with
    | some (flag, short) => .ok (.flag flag short none)
    | none =>
      let (name, attached) := cutEquals cs
      match attached, grammar.named? name with
      | some value, some (flag, short) => .ok (.flag flag short (some value))
      | _, _ => grammar.unnamed text

/-- The words of a command line. -/
def Grammar.words (grammar : Grammar) : List String → Except Fault (List Word)
  | [] => .ok []
  | text :: rest =>
    if text = "--" then .ok (.marker :: rest.map .operand)
    else do
      let word ← grammar.word text
      let others ← grammar.words rest
      .ok (word :: others)

end ComLayout.CommandLine
