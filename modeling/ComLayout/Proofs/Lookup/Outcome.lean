import ComLayout.Proofs.Steps
import ComLayout.Vtable.Lookup

/-!
# The outcome of a lookup in a tree that does not change

Where headers do not change while a lookup runs, what it tells on its way has no influence on its
outcome. The slots of a declaration are then a function of the header's text alone, and a lookup is the
discovery of headers, followed by the choice of the first that declares the name, followed by that
function. Events are left out here.
-/

namespace ComLayout

namespace Search

variable {α β : Type}

/-- A search ends with this result, whatever was told before it. -/
def Yields (s : Search α) (result : Except SearchFault α) : Prop :=
  ∀ told, (s.run.run told).1 = result

theorem yields_pure (a : α) : Yields (pure a) (.ok a) := fun _ => rfl

theorem yields_throw (fault : SearchFault) : Yields (throw fault : Search α) (.error fault) :=
  fun _ => rfl

theorem yields_refuse (error : LookupError) :
    Yields (refuse error : Search α) (.error (.lookup error)) := fun _ => rfl

theorem yields_tell (event : LookupEvent) : Yields (tell event) (.ok ()) := fun _ => rfl

theorem yields_remark (text : String) : Yields (remark text) (.ok ()) := fun _ => rfl

/-- A search goes on from the value of its first part. -/
theorem yields_bind {s : Search α} {f : α → Search β} {a : α} {result : Except SearchFault β}
    (first : Yields s (.ok a)) (second : Yields (f a) result) : Yields (s >>= f) result := by
  intro told
  have value : (s.run.run told).1 = .ok a := first told
  rw [run_bind]
  rcases outcome : s.run.run told with ⟨reached, later⟩
  rw [outcome] at value
  subst value
  exact second later

/-- A search that fails in its first part fails as a whole. -/
theorem yields_bind_error {s : Search α} {f : α → Search β} {fault : SearchFault}
    (first : Yields s (.error fault)) : Yields (s >>= f) (.error fault) := by
  intro told
  have value : (s.run.run told).1 = .error fault := first told
  rw [run_bind]
  rcases outcome : s.run.run told with ⟨reached, later⟩
  rw [outcome] at value
  subst value
  rfl

/-- What a search does with all that was told has to lead to the same result in every case. -/
theorem yields_get {f : List LookupEvent → Search β} {result : Except SearchFault β}
    (each : ∀ told, Yields (f told) result) : Yields (get >>= f) result := by
  intro told
  rw [run_bind]
  exact each told told

end Search

namespace Lookup

open Search Text Header

/-- The text of the file at a place. -/
def fileText (tree : Tree) (place : Location) : List Char :=
  textOf ((tree.contents? place).getD ByteArray.empty)

/-- The slots of a declaration, given the text in which it stands and the path of that header. -/
def slotsOf (text : List Char) (path : String) : (budget : Nat) → (chain : List String) → Declaration →
    Except LookupError (List Method)
  | budget, chain, decl =>
    match decl.form with
    | .classic => .ok (ownMethods text decl 0)
    | .declarative base =>
      if base = Vtable.rootInterface then
        .ok (Vtable.rootMethods ++ ownMethods text decl Vtable.rootMethods.length)
      else if lowerString base ∈ chain then .error (.inheritanceCycle (chain ++ [lowerString base]))
      else match budget with
        | 0 => .error (.inheritanceCycle (chain ++ [lowerString base]))
        | budget + 1 =>
          match firstDeclaration? base text with
          | none => .error (.baseUnresolved decl.name base path)
          | some baseDecl =>
            (slotsOf text path budget (chain ++ [lowerString base]) baseDecl).map fun inherited =>
              inherited ++ ownMethods text decl inherited.length

/-- Own slots come behind the inherited ones. -/
theorem assemble_yields (path : String) (found : Found) (inherited : List Method) :
    Yields (assemble path found inherited)
      (.ok (inherited ++ ownMethods found.text found.decl inherited.length)) := by
  have missing : Yields (remarkMissingStruct found.text found.decl) (.ok ()) := by
    unfold remarkMissingStruct
    split
    · exact yields_tell _
    · exact yields_pure ()
  exact yields_bind missing (yields_bind (yields_remark _) (yields_pure _))

/-- A header is inspected for the first declaration of a name in its text. -/
theorem inspect_yields (tree : Tree) (c : Candidate) (name : String) :
    Yields (inspect (Reading.ofTree tree) c name)
      (.ok ((firstDeclaration? name (fileText tree c.place)).map (Found.mk (fileText tree c.place)))) := by
  refine yields_bind (yields_tell _) (yields_get ?_)
  intro told
  have read : textOf (Reading.ofTree tree told c) = fileText tree c.place := rfl
  simp only [read]
  cases firstDeclaration? name (fileText tree c.place) with
  | none => exact yields_bind (yields_remark _) (yields_pure _)
  | some decl => exact yields_pure _

/-- Laying out a declaration yields its slots. -/
theorem layout_yields (tree : Tree) (c : Candidate) (budget : Nat) (chain : List String)
    (decl : Declaration) :
    Yields (layout (Reading.ofTree tree) c budget chain ⟨fileText tree c.place, decl⟩)
      ((slotsOf (fileText tree c.place) c.path.toString budget chain decl).mapError .lookup) := by
  fun_induction slotsOf (fileText tree c.place) c.path.toString budget chain decl with
  | case1 budget chain decl classic =>
    rw [layout]
    simp only [classic]
    exact assemble_yields _ _ []
  | case2 budget chain decl form =>
    rw [layout]
    simp only [form, if_true]
    exact assemble_yields _ _ _
  | case3 budget chain decl base form root repeated =>
    rw [layout]
    simp only [form, root, repeated, if_true, if_false]
    exact yields_refuse _
  | case4 chain decl base form root fresh =>
    rw [layout]
    simp only [form, root, fresh, if_false]
    exact yields_refuse _
  | case5 chain decl base form root fresh budget missing =>
    rw [layout]
    simp only [form, root, fresh, if_false]
    apply yields_bind (inspect_yields tree c base)
    rw [missing]
    exact yields_refuse _
  | case6 chain decl base form root fresh budget baseDecl declared inductionHypothesis =>
    rw [layout]
    simp only [form, root, fresh, if_false]
    apply yields_bind (inspect_yields tree c base)
    rw [declared]
    cases inherited : slotsOf (fileText tree c.place) c.path.toString budget
        (chain ++ [lowerString base]) baseDecl with
    | error fault =>
      rw [inherited] at inductionHypothesis
      exact yields_bind_error inductionHypothesis
    | ok methods =>
      rw [inherited] at inductionHypothesis
      exact yields_bind inductionHypothesis (assemble_yields _ _ _)

/-- The first of some headers that declares a name, with the declaration. -/
def declaring? (tree : Tree) (name : String) (cs : List Candidate) : Option (Candidate × Declaration) :=
  cs.findSome? fun c => (firstDeclaration? name (fileText tree c.place)).map (c, ·)

/-- Of some headers, those before the first that declares a name do not declare it. -/
theorem declaring?_eq_some (tree : Tree) (name : String) (cs : List Candidate) (c : Candidate)
    (decl : Declaration) :
    declaring? tree name cs = some (c, decl) ↔ ∃ skipped others, cs = skipped ++ c :: others ∧
      (∀ b ∈ skipped, firstDeclaration? name (fileText tree b.place) = none) ∧
      firstDeclaration? name (fileText tree c.place) = some decl := by
  rw [declaring?, List.findSome?_eq_some_iff]
  simp only [Option.map_eq_some_iff, Option.map_eq_none_iff, Prod.mk.injEq]
  constructor
  · rintro ⟨skipped, _, others, rfl, ⟨_, declared, rfl, rfl⟩, silent⟩
    exact ⟨skipped, others, rfl, silent, declared⟩
  · rintro ⟨skipped, others, rfl, silent, declared⟩
    exact ⟨skipped, c, others, rfl, ⟨decl, declared, rfl, rfl⟩, silent⟩

/-- The vtable of a declaration that was requested by name. -/
def vtableOf (tree : Tree) (name : String) (c : Candidate) (decl : Declaration) :
    Except LookupError Vtable :=
  (slotsOf (fileText tree c.place) c.path.toString (maxChain - 1) [lowerString name] decl).map fun methods =>
    ⟨decl.name, methods, some c.path.toString⟩

/-- Of some headers the first that declares the name determines the vtable. -/
theorem firstIn_yields (tree : Tree) (name : String) (cs : List Candidate) :
    Yields (firstIn (Reading.ofTree tree) name cs) (match declaring? tree name cs with
      | none => .ok none
      | some (c, decl) => ((vtableOf tree name c decl).map some).mapError .lookup) := by
  induction cs with
  | nil => exact yields_pure none
  | cons c rest inductionHypothesis =>
    apply yields_bind (inspect_yields tree c name)
    rw [declaring?, List.findSome?_cons]
    cases firstDeclaration? name (fileText tree c.place) with
    | none => exact inductionHypothesis
    | some decl =>
      have laidOut := layout_yields tree c (maxChain - 1) [lowerString name] decl
      simp only [Option.map_some, vtableOf]
      cases slots : slotsOf (fileText tree c.place) c.path.toString (maxChain - 1) [lowerString name] decl with
      | error fault =>
        rw [slots] at laidOut
        exact yields_bind_error laidOut
      | ok methods =>
        rw [slots] at laidOut
        exact yields_bind laidOut (yields_pure _)

/-- The outcome of a lookup among the headers that were discovered. -/
def foundAmong (tree : Tree) (name pattern : String) (cs : List Candidate) : Except LookupError Vtable :=
  if cs = [] then .error (.noMatchingFiles pattern)
  else match declaring? tree name cs with
    | none => .error (.interfaceNotFound name pattern cs.length)
    | some (c, decl) => vtableOf tree name c decl

/-- A search among discovered headers. -/
theorem search_yields (tree : Tree) (name pattern : String) (recurse : Bool) (filter : Filter) :
    Yields (search tree (Reading.ofTree tree) name pattern recurse filter)
      (match Discovery.discover tree pattern recurse filter with
        | .error fault => .error (.discovery fault)
        | .ok cs => (foundAmong tree name pattern cs).mapError .lookup) := by
  rw [search, candidates]
  cases Discovery.discover tree pattern recurse filter with
  | error fault => exact yields_bind_error (yields_throw _)
  | ok cs =>
    cases cs with
    | nil => exact yields_bind_error (yields_refuse _)
    | cons c rest =>
      refine yields_bind (yields_bind (yields_remark _) (yields_pure _)) ?_
      have first := firstIn_yields tree name (c :: rest)
      simp only [foundAmong, reduceCtorEq, if_false]
      cases declared : declaring? tree name (c :: rest) with
      | none =>
        rw [declared] at first
        exact yields_bind first (yields_refuse _)
      | some found =>
        rw [declared] at first
        cases vtable : vtableOf tree name found.1 found.2 with
        | error fault =>
          simp only [vtable] at first ⊢
          exact yields_bind_error first
        | ok vtable =>
          simp only [vtable] at first ⊢
          exact yields_bind first (yields_pure _)

/-- A lookup of a name is the discovery of headers and then a choice among them. -/
theorem find_result (tree : Tree) (name pattern : String) (recurse : Bool) (filter : Filter)
    (named : name ≠ "") :
    (find tree name pattern recurse filter).1 = match Discovery.discover tree pattern recurse filter with
      | .error fault => .error (.discovery fault)
      | .ok cs => (foundAmong tree name pattern cs).mapError .lookup := by
  have isNamed : name.isEmpty = false := by simpa using named
  rw [find, findReading, isNamed]
  exact search_yields tree name pattern recurse filter []

/-- A lookup that succeeds has found its vtable in the first discovered header that declares the name. -/
theorem find_eq_ok (tree : Tree) (name pattern : String) (recurse : Bool) (filter : Filter)
    (vtable : Vtable) (found : (find tree name pattern recurse filter).1 = .ok vtable) :
    name ≠ "" ∧ ∃ cs c decl, Discovery.discover tree pattern recurse filter = .ok cs ∧
      declaring? tree name cs = some (c, decl) ∧ vtableOf tree name c decl = .ok vtable := by
  have named : name ≠ "" := by
    rintro rfl
    simp [find, findReading] at found
  refine ⟨named, ?_⟩
  rw [find_result tree name pattern recurse filter named] at found
  cases discovered : Discovery.discover tree pattern recurse filter with
  | error fault => simp [discovered] at found
  | ok cs =>
    simp only [discovered, foundAmong] at found
    by_cases nothing : cs = []
    · simp [nothing] at found
    · rw [if_neg nothing] at found
      cases declared : declaring? tree name cs with
      | none => simp [declared] at found
      | some result =>
        obtain ⟨c, decl⟩ := result
        refine ⟨cs, c, decl, rfl, declared, ?_⟩
        cases outcome : vtableOf tree name c decl with
        | error fault => simp [declared, outcome] at found
        | ok result => simpa [declared, outcome] using found

end Lookup

end ComLayout
