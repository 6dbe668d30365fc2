import ComLayout.CommandLine.Commands
import ComLayout.CommandLine.Given
import ComLayout.Run.Console
import ComLayout.Run.Filter

/-!
# The measuring command

The headers are listed and the vtable is looked up as often as asked for, at least once. What was found
is printed with the rate of the lookups. Every fault ends the command. The output is taken to show every text.
-/

namespace ComLayout.Run

open CommandLine

/-- How often the lookup is repeated unless told otherwise. -/
def standardRepeats : Int := 10

/-- The filter for what is given. -/
def benchFilter (given : Given) : Filter :=
  let rules := match given.all "exclude" with
    | [] => Filter.standard.rules
    | patterns => Filter.rulesOf (.list patterns)
  ⟨rules, Filter.limitOf ((given.last? "max-file-bytes").getD (.int Filter.standardLimit))⟩

/-- The number of lookups. -/
def lookups (given : Given) : Except SettingsFault Nat :=
  match given.last? "repeat" with
  | none => .ok (max 1 standardRepeats).toNat
  | some (.int n) => .ok (max 1 n).toNat
  | some _ => .error .wrongKind

/-- What was found, as it is printed. -/
def findings (headers : Nat) (vtable : Vtable) (lookups : Nat) (rate : String) : List String :=
  ["files: " ++ toString headers, "methods: " ++ toString vtable.size,
    "source: " ++ vtable.source.getD "-", "lookups: " ++ toString lookups,
    "lookups/sec: " ++ rate]

/-- List the headers, count the lookups and look up the vtable; looking it up again gives the same. -/
def measure (around : Surroundings) (given : Given) : Except Ending (Nat × Vtable × Nat) := do
  let pattern := (given.operand? 1).getD "."
  let recurse := given.has "recurse"
  let filter := benchFilter given
  let found ← (Discovery.discover around.tree pattern recurse filter).mapError
    (.searchFault ∘ .discovery)
  let lookups ← (lookups given).mapError .settingsFault
  let vtable ← (Lookup.find around.tree ((given.operand? 0).getD "") pattern recurse filter).1.mapError
    .searchFault
  .ok (found.length, vtable, lookups)

/-- Run the measuring command; the rate is measured outside. -/
def benchGiven (around : Surroundings) (rate : String) (given : Given) : Outcome :=
  let console := Console.start around
  match measure around given with
  | .error ending => console.outcome ending
  | .ok (headers, vtable, lookups) =>
    ((findings headers vtable lookups rate).foldl Console.print console).outcome .returned

/-- Run the measuring command. -/
def bench (around : Surroundings) (rate : String) (arguments : List String) : Outcome :=
  let console := Console.start around
  match CommandLine.bench.read arguments with
  | .error .help => { console with output := CommandLine.bench.help }.outcome (.exited 0)
  | .error (.fault fault) =>
    { console with errors := CommandLine.bench.complaint fault }.outcome (.exited 2)
  | .ok given => benchGiven around rate given

end ComLayout.Run
