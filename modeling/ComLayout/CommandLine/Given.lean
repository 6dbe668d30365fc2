import ComLayout.CommandLine.Word
import ComLayout.Number.Reader
import ComLayout.Value.Basic

/-!
# What a command line gives

Flags act in the order in which they stand; help ends the reading. The operands are taken from the
first run of words that are no flags, as far as there are any, and later runs give none. What nothing
takes is not recognized, which is found out only at the end.
-/

namespace ComLayout.CommandLine

/-- Why there is nothing to do: help was asked for, or the command line is not understood. -/
inductive Stop where
  | help
  | fault (fault : Fault)
deriving DecidableEq, Repr

/-- What a command line gives: the operands, and the flags with their values in order. -/
structure Given where
  operands : List (Option String)
  flags : List (String × Value)

namespace Given

/-- An operand by its place. -/
def operand? (given : Given) (place : Nat) : Option String := (given.operands[place]?).join

/-- Whether a flag was given. -/
def has (given : Given) (long : String) : Bool := given.flags.any fun entry => entry.1 == long

/-- All values of a flag. -/
def all (given : Given) (long : String) : List Value :=
  (given.flags.filter fun entry => entry.1 == long).map Prod.snd

/-- The last value of a flag. -/
def last? (given : Given) (long : String) : Option Value := (given.all long).getLast?

end Given

/-- The value of a text for a flag. Two lone hyphens stand for no value, which is an empty list. -/
def Flag.value (flag : Flag) (text : String) : Except Fault Value :=
  if text = "--" then .ok (.list [])
  else if flag.takes = .integer then
    match Number.readInt? text.toList with
    | some n => .ok (.int n)
    | none => .error (.noInteger flag text)
  else .ok (.text text)

/-- A flag, and the words behind it up to the next flag. -/
structure Segment where
  word : Word
  run : List Word

/-- Cut words into the run before the first flag and segments. -/
def segments : List Word → List Word × List Segment
  | [] => ([], [])
  | word :: rest =>
    let (run, more) := segments rest
    match word with
    | .flag _ _ _ => ([], ⟨word, run⟩ :: more)
    | .unknown _ => ([], ⟨word, run⟩ :: more)
    | _ => (word :: run, more)

/-- Take one operand from a run, and the two lone hyphens beside it. -/
def takeOperand : List Word → Option String × List Word
  | .marker :: .operand text :: rest => (some text, rest)
  | .operand text :: .marker :: rest => (some text, rest)
  | .operand text :: rest => (if text = "--" then none else some text, rest)
  | .marker :: rest => (none, rest)
  | run => (none, run)

/-- Take operands from a run, as many as there are names for. -/
def takeOperands : (names : List String) → List Word → List (Option String) × List Word
  | [], run => ([], run)
  | _ :: names, run =>
    let (first, rest) := takeOperand run
    let (others, rest) := takeOperands names rest
    (first :: others, rest)

/-- Whether a word is an operand. -/
def Word.isOperand : Word → Bool
  | .operand _ => true
  | _ => false

/-- The text of a word that no flag takes. -/
def Word.leftover : Word → String
  | .operand text => text
  | .unknown text => text
  | _ => "--"

/-- Take the operands of a command from a run, unless the first is required and the run has none. -/
def Grammar.operandsOf? (grammar : Grammar) (run : List Word) :
    Option (List (Option String) × List Word) :=
  if grammar.firstRequired && !run.any Word.isOperand then none
  else some (takeOperands grammar.operands run)

/-- The state of reading: the operands as soon as they are taken, the flags and what is left over. -/
structure Progress where
  operands : Option (List (Option String))
  flags : List (String × Value)
  leftover : List String

namespace Progress

/-- The state before the first word. -/
def start : Progress := ⟨none, [], []⟩

/-- Record a flag with its value. -/
def record (progress : Progress) (flag : Flag) (value : Value) : Progress :=
  { progress with flags := progress.flags ++ [(flag.long, value)] }

/-- Leave words over. -/
def leave (progress : Progress) (words : List Word) : Progress :=
  { progress with leftover := progress.leftover ++ words.map Word.leftover }

/-- Read a run. -/
def readRun (grammar : Grammar) (progress : Progress) (run : List Word) : Progress :=
  match progress.operands, run, grammar.operandsOf? run with
  | none, _ :: _, some (operands, rest) => { progress with operands := some operands }.leave rest
  | _, _, _ => progress.leave run

/-- Let a flag without value act. -/
def switch (progress : Progress) (flag : Flag) : Except Stop Progress :=
  if flag.takes = .help then .error .help else .ok (progress.record flag (.bool true))

/-- Let flags without values act. -/
def switchAll (progress : Progress) : List Flag → Except Stop Progress
  | [] => .ok progress
  | flag :: rest => do (← progress.switch flag).switchAll rest

end Progress

/-- The short flags that are written together behind a first one: all but the last, the last, and
what stands behind it. -/
def Grammar.cluster (grammar : Grammar) (flag : Flag) :
    List Char → Except Fault (List Flag × Flag × Option (List Char))
  | [] => .ok ([], flag, none)
  | c :: rest =>
    if flag.takesValue then .ok ([], flag, some (c :: rest))
    else match grammar.flags.find? fun other => other.short == some c with
      | some next => do
        let (before, last, attached) ← grammar.cluster next rest
        .ok (flag :: before, last, attached)
      | none => .error (.valueIgnored flag (String.ofList (c :: rest)))

/-- The flags of a word: all but the last, the last, and the value attached to it. -/
def Grammar.unfold (grammar : Grammar) (flag : Flag) (short : Bool) (attached : Option (List Char)) :
    Except Fault (List Flag × Flag × Option (List Char)) :=
  match attached with
  | none => .ok ([], flag, none)
  | some cs =>
    if flag.takesValue then .ok ([], flag, some cs)
    else if short && !cs.isEmpty then grammar.cluster flag cs
    else .error (.valueIgnored flag (String.ofList cs))

/-- The value of a flag: what is attached to it, or the first word of the run behind it. -/
def takeValue (flag : Flag) (attached : Option (List Char)) (run : List Word) :
    Except Fault (String × List Word) :=
  match attached, run with
  | some cs, _ => .ok (String.ofList cs, run)
  | none, .operand text :: rest => .ok (text, rest)
  | none, _ => .error (.valueMissing flag)

/-- Turn a fault into a reason to stop. -/
def stopping {α : Type} : Except Fault α → Except Stop α
  | .ok a => .ok a
  | .error fault => .error (.fault fault)

/-- Read a flag and the run behind it. -/
def Grammar.readFlag (grammar : Grammar) (progress : Progress) (flag : Flag) (short : Bool)
    (attached : Option (List Char)) (run : List Word) : Except Stop Progress := do
  let (before, last, attached) ← stopping (grammar.unfold flag short attached)
  if last.takesValue then
    let (text, rest) ← stopping (takeValue last attached run)
    let progress ← progress.switchAll before
    let value ← stopping (last.value text)
    .ok ((progress.record last value).readRun grammar rest)
  else
    let progress ← progress.switchAll (before ++ [last])
    .ok (progress.readRun grammar run)

/-- Read segments. -/
def Grammar.readSegments (grammar : Grammar) (progress : Progress) :
    List Segment → Except Stop Progress
  | [] => .ok progress
  | ⟨.flag flag short attached, run⟩ :: rest => do
    grammar.readSegments (← grammar.readFlag progress flag short attached run) rest
  | ⟨word, run⟩ :: rest => grammar.readSegments ((progress.leave [word]).readRun grammar run) rest

/-- What is given in the end: the operands have to be there, and nothing left over. -/
def Grammar.conclude (grammar : Grammar) (progress : Progress) : Except Stop Given :=
  match progress.operands <|> (grammar.operandsOf? []).map Prod.fst with
  | none => .error (.fault (.operandMissing (grammar.operands.head?.getD "")))
  | some operands =>
    if progress.leftover.isEmpty then .ok ⟨operands, progress.flags⟩
    else .error (.fault (.unrecognized progress.leftover))

/-- Read a command line. -/
def Grammar.read (grammar : Grammar) (texts : List String) : Except Stop Given := do
  let words ← stopping (grammar.words texts)
  let (run, more) := segments words
  let progress ← grammar.readSegments (Progress.start.readRun grammar run) more
  grammar.conclude progress

end ComLayout.CommandLine
