import ComLayout.Discovery
import ComLayout.Value.Basic

/-!
# Filters from settings

The rules and the limit of a filter as settings give them. A value that does not count as true excludes
nothing. The members of a value that lists something are the rules; anything else in the place of a
list or a pattern makes a rule that cannot be applied, except that what counts as false in the place of
a pattern is an empty one. A limit that is no number cannot be applied either.
-/

namespace ComLayout

open Glob

namespace Filter

/-- Whether a value is the text of a slash. -/
def isSlash : Value → Bool
  | .text s => s = "/"
  | _ => false

/-- What stands in the place of a pattern. -/
def misfitOf : Value → Misfit
  | .list items => .list (items.any isSlash)
  | .table _ => .table
  | _ => .single

/-- The rule for a member of a list. -/
def ruleOf : Value → Rule
  | .text s => .glob s
  | value => if value.truthy then .malformed (misfitOf value) else .glob ""

/-- The rules for the value of a setting. -/
def rulesOf (value : Value) : List Rule :=
  if !value.truthy then []
  else match value with
    | .text s => s.toList.map fun c => .glob (String.singleton c)
    | .list items => items.map ruleOf
    | .table entries => entries.map fun entry => .glob entry.1
    | _ => [.malformed .single]

/-- The limit for the value of a setting; a truth value is zero or one. -/
def limitOf : Value → SizeLimit
  | .bool b => .int (if b then 1 else 0)
  | .int n => .int n
  | .real x => .real x
  | _ => .malformed

end Filter

end ComLayout
