import ComLayout.Text.Quoted

/-!
# Command lines

A command takes flags and operands. A flag has a long name behind two hyphens and perhaps a short one
behind one hyphen. It stands for itself or takes a value. The operands are taken in their order; the
first may be required.
-/

namespace ComLayout.CommandLine

/-- What a flag takes: nothing, as for help and switches, or a value, which is a text or an integer;
texts are collected over all uses of the flag. -/
inductive Taking where
  | help
  | nothing
  | text
  | integer
  | texts
deriving DecidableEq, Repr

/-- A flag by its short and its long name. -/
structure Flag where
  short : Option Char
  long : String
  takes : Taking
deriving DecidableEq, Repr

/-- What a command understands, and the texts that explain it. -/
structure Grammar where
  program : String
  usage : String
  help : String
  flags : List Flag
  operands : List String
  firstRequired : Bool

namespace Flag

/-- The short spelling. -/
def shortSpelling? (flag : Flag) : Option String := flag.short.map fun c => String.ofList ['-', c]

/-- The long spelling. -/
def longSpelling (flag : Flag) : String := "--" ++ flag.long

/-- All spellings. -/
def spellings (flag : Flag) : List String := flag.shortSpelling?.toList ++ [flag.longSpelling]

/-- The name of a flag in messages. -/
def title (flag : Flag) : String := String.intercalate "/" flag.spellings

/-- Whether a value follows. -/
def takesValue (flag : Flag) : Bool :=
  match flag.takes with
  | .help => false
  | .nothing => false
  | _ => true

end Flag

/-- Why a command line is not understood. -/
inductive Fault where
  | ambiguous (word : String) (candidates : List String)
  | valueMissing (flag : Flag)
  | valueIgnored (flag : Flag) (value : String)
  | noInteger (flag : Flag) (value : String)
  | operandMissing (name : String)
  | unrecognized (words : List String)
deriving DecidableEq, Repr

/-- The message for a fault. -/
def Fault.message : Fault → String
  | .ambiguous word candidates =>
    "ambiguous option: " ++ word ++ " could match " ++ String.intercalate ", " candidates
  | .valueMissing flag => "argument " ++ flag.title ++ ": expected one argument"
  | .valueIgnored flag value =>
    "argument " ++ flag.title ++ ": ignored explicit argument " ++ Text.quoted value
  | .noInteger flag value => "argument " ++ flag.title ++ ": invalid int value: " ++ Text.quoted value
  | .operandMissing name => "the following arguments are required: " ++ name
  | .unrecognized words => "unrecognized arguments: " ++ String.intercalate " " words

/-- What is written when a command line is not understood. -/
def Grammar.complaint (grammar : Grammar) (fault : Fault) : String :=
  grammar.usage ++ grammar.program ++ ": error: " ++ fault.message ++ "\n"

end ComLayout.CommandLine
