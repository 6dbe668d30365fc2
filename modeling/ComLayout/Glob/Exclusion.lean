import ComLayout.Files.Path
import ComLayout.Glob.Pattern

/-!
# Exclusion rules

A rule excludes the paths that its pattern matches. The pattern is read as a path whose parts are
wildcard patterns. A pattern without anchor matches the last parts of a path, one by one; an anchored
pattern has to match all parts. A part `**` matches exactly one part, as `*` does; but a rule that
holds `**/` is tried a second time without these, so that they also stand for no directory at all.
A pattern without parts is refused.
-/

namespace ComLayout.Glob

/-- What may stand in the place of a pattern: a single value that is no text, a list, which may hold a
slash, or a table. -/
inductive Misfit where
  | single
  | list (slash : Bool)
  | table
deriving DecidableEq, Repr

/-- An exclusion rule: a pattern, or something in its place that is none. -/
inductive Rule where
  | glob (pattern : String)
  | malformed (misfit : Misfit)
deriving DecidableEq, Repr

/-- Why a rule cannot be applied. -/
inductive RuleFault where
  | emptyPattern
  | malformed (misfit : Misfit)
deriving DecidableEq, Repr

/-- Whether patterns match texts one by one, from the ends backwards, where the patterns may be
fewer. -/
def matchesTail (patterns texts : List String) : Bool :=
  patterns.length ≤ texts.length &&
    (patterns.reverse.zip texts.reverse).all fun (pattern, text) => matchesName pattern text

/-- Whether a pattern with at least one part matches a path. -/
def matchesParts (pattern path : Path) : Bool :=
  if pattern.anchor = .none then matchesTail pattern.names path.parts
  else pattern.anchor = path.anchor && pattern.names.length = path.names.length &&
    matchesTail pattern.names path.names

/-- Whether a pattern matches a path; a pattern without parts is refused. -/
def matchesPath (pattern : String) (path : Path) : Except RuleFault Bool :=
  let read := Path.ofString pattern
  if read.parts.isEmpty then .error .emptyPattern else .ok (matchesParts read path)

/-- Whether `**/` occurs in a text. -/
def holdsDoubleStar : List Char → Bool
  | [] => false
  | '*' :: '*' :: '/' :: _ => true
  | _ :: rest => holdsDoubleStar rest

/-- A text without its occurrences of `**/`, found from the left. -/
def dropDoubleStars : List Char → List Char
  | [] => []
  | '*' :: '*' :: '/' :: rest => dropDoubleStars rest
  | c :: rest => c :: dropDoubleStars rest

/-- Whether a rule excludes a path. -/
def Rule.excludes (path : Path) : Rule → Except RuleFault Bool
  | .malformed misfit => .error (.malformed misfit)
  | .glob pattern => do
    if ← matchesPath pattern path then .ok true
    else if holdsDoubleStar pattern.toList then
      matchesPath (String.ofList (dropDoubleStars pattern.toList)) path
    else .ok false

/-- Whether one of the rules excludes a path; the rules are tried in order up to the first that does. -/
def anyExcludes (path : Path) : List Rule → Except RuleFault Bool
  | [] => .ok false
  | rule :: rest => do
    if ← rule.excludes path then .ok true else anyExcludes path rest

end ComLayout.Glob
