import ComLayout.Proofs.Lookup.RequestWalk
import ComLayout.Vtable.Progress

/-!
# What a lookup shows

While a lookup runs, each header is shown on a status display as it is read, and in the end the display is
cleared. The headers are read in the order of their discovery up to the first that declares the name. That
one is read again for each base that is looked up in it, which the guard against cycles admits less often
than a chain has interfaces.
-/

namespace ComLayout

namespace Search

open Lookup

variable {α β : Type} {handle : String}

/-- What a search tells are shows of these paths, whatever was told before it. -/
def Shows (handle : String) (s : Search α) (paths : List String) : Prop :=
  ∀ told, ∃ more, (s.run.run told).2 = told ++ more ∧
    more.filterMap (statusCall? handle) = paths.map (.show_ handle)

theorem shows_pure (a : α) : Shows handle (pure a) [] := fun told => ⟨[], (List.append_nil told).symm, rfl⟩

theorem shows_throw (fault : SearchFault) : Shows handle (throw fault : Search α) [] :=
  fun told => ⟨[], (List.append_nil told).symm, rfl⟩

theorem shows_refuse (error : LookupError) : Shows handle (refuse error : Search α) [] := shows_throw _

theorem shows_remark (record : LogRecord) : Shows handle (tell (.remark record)) [] :=
  fun _ => ⟨[.remark record], rfl, rfl⟩

theorem shows_reading (path : String) : Shows handle (tell (.reading path)) [path] :=
  fun _ => ⟨[.reading path], rfl, rfl⟩

/-- A search that goes on from the value of its first part shows what its parts show. -/
theorem shows_bind {s : Search α} {f : α → Search β} {a : α} {first second : List String}
    (value : Yields s (.ok a)) (begins : Shows handle s first) (goesOn : Shows handle (f a) second) :
    Shows handle (s >>= f) (first ++ second) := by
  intro told
  obtain ⟨more, between, shown⟩ := begins told
  have reached : (s.run.run told).1 = .ok a := value told
  rcases outcome : s.run.run told with ⟨result, later⟩
  rw [outcome] at reached between
  subst reached between
  obtain ⟨further, last, shownFurther⟩ := goesOn (told ++ more)
  refine ⟨more ++ further, ?_, ?_⟩
  · rw [run_bind, outcome, ← List.append_assoc]
    exact last
  · rw [List.filterMap_append, shown, shownFurther, List.map_append]

/-- A search that fails in its first part shows what that part shows. -/
theorem shows_bind_error {s : Search α} {f : α → Search β} {fault : SearchFault} {paths : List String}
    (failed : Yields s (.error fault)) (begins : Shows handle s paths) : Shows handle (s >>= f) paths := by
  intro told
  obtain ⟨more, between, shown⟩ := begins told
  have reached : (s.run.run told).1 = .error fault := failed told
  rcases outcome : s.run.run told with ⟨result, later⟩
  rw [outcome] at reached between
  subst reached between
  refine ⟨more, ?_, shown⟩
  rw [run_bind, outcome]

/-- What follows without a show adds none, whether it is reached or not. -/
theorem shows_bind_quiet {s : Search α} {f : α → Search β} {paths : List String}
    (begins : Shows handle s paths) (quiet : ∀ a, Shows handle (f a) []) : Shows handle (s >>= f) paths := by
  intro told
  obtain ⟨more, between, shown⟩ := begins told
  rcases outcome : s.run.run told with ⟨fault | a, later⟩
  · refine ⟨more, ?_, shown⟩
    rw [outcome] at between
    rw [run_bind, outcome]
    exact between
  · obtain ⟨further, last, shownFurther⟩ := quiet a later
    rw [outcome] at between
    subst between
    refine ⟨more ++ further, ?_, ?_⟩
    · rw [run_bind, outcome, ← List.append_assoc]
      exact last
    · rw [List.filterMap_append, shown, shownFurther, List.map_nil, List.append_nil]

/-- What a search does with all that was told has to show the same in every case. -/
theorem shows_get {f : List LookupEvent → Search β} {paths : List String}
    (each : ∀ told, Shows handle (f told) paths) : Shows handle (get >>= f) paths := by
  intro told
  rw [run_get_bind]
  exact each told told

end Search

namespace Lookup

open Search Text Header

variable {handle : String}

section Walk

variable (text : List Char)

/-- The guard against cycles admits a request of a walk: it is within the limit, and repeats no earlier one
up to case. -/
def Admitted (name : String) (i : Nat) : Prop :=
  i < maxChain ∧ ∃ request, requestAt text name i = some request ∧
    ∀ j < i, (requestAt text name j).map lowerString ≠ some (lowerString request)

/-- How often a base is looked up for the slots of a declaration. -/
def baseLookups : (budget : Nat) → (chain : List String) → Declaration → Nat
  | budget, chain, decl =>
    match decl.form with
    | .classic => 0
    | .declarative base =>
      if base = Vtable.rootInterface then 0
      else if lowerString base ∈ chain then 0
      else match budget with
        | 0 => 0
        | budget + 1 =>
          match firstDeclaration? base text with
          | none => 1
          | some baseDecl => baseLookups budget (chain ++ [lowerString base]) baseDecl + 1

variable {text}

/-- No base is looked up more often than the budget admits. -/
theorem baseLookups_le (budget : Nat) (chain : List String) (decl : Declaration) :
    baseLookups text budget chain decl ≤ budget := by
  fun_induction baseLookups text budget chain decl with
  | case1 => exact Nat.zero_le _
  | case2 => exact Nat.zero_le _
  | case3 => exact Nat.zero_le _
  | case4 => exact Nat.zero_le _
  | case5 => exact Nat.le_add_left 1 _
  | case6 chain decl base form other fresh budget baseDecl declared inductionHypothesis =>
    exact Nat.succ_le_succ inductionHypothesis

/-- So many requests behind one are admitted, one after the other. -/
def AdmittedBehind (text : List Char) (name : String) (i count : Nat) : Prop :=
  ∀ n, n ≤ count ↔ ∀ j, i < j → j ≤ i + n → Admitted text name j

/-- Where the next request is not admitted, none is. -/
theorem admittedBehind_zero {name : String} {i : Nat} (refused : ¬ Admitted text name (i + 1)) :
    AdmittedBehind text name i 0 := by
  intro n
  constructor
  · rintro none j behind within
    omega
  · intro all
    refine Nat.le_of_not_lt fun further => refused (all (i + 1) (Nat.lt_succ_self i) ?_)
    omega

/-- Where the next request is admitted, it is counted with those behind it. -/
theorem admittedBehind_succ {name : String} {i count : Nat} (next : Admitted text name (i + 1))
    (behind : AdmittedBehind text name (i + 1) count) : AdmittedBehind text name i (count + 1) := by
  intro n
  cases n with
  | zero =>
    refine ⟨fun _ j above within => ?_, fun _ => Nat.zero_le _⟩
    omega
  | succ n =>
    rw [Nat.add_le_add_iff_right, behind n]
    constructor
    · intro all j above within
      rcases Nat.lt_or_eq_of_le (Nat.succ_le_of_lt above) with further | here
      · exact all j further (by omega)
      · exact here ▸ next
    · exact fun all j above within => all j (by omega) (by omega)

/-- A request is not admitted where there is none. -/
theorem not_admitted_of_none {name : String} {i : Nat} (none : requestAt text name i = none) :
    ¬ Admitted text name i := by
  rintro ⟨-, request, reached, -⟩
  simp [none] at reached

/-- A request whose key is in the chain of the earlier ones is not admitted. -/
theorem not_admitted_of_mem {name request : String} {chain : List String} (traces : Traces text name chain)
    (reached : requestAt text name chain.length = some request) (repeated : lowerString request ∈ chain) :
    ¬ Admitted text name chain.length := by
  rintro ⟨-, other, again, fresh⟩
  obtain rfl := Option.some.inj (reached.symm.trans again)
  obtain ⟨j, listed⟩ := List.mem_iff_getElem?.mp repeated
  exact fresh j (List.getElem?_eq_some_iff.mp listed).1 (traces j _ listed)

/-- A request whose key is not in the chain of the earlier ones is admitted within the limit. -/
theorem admitted_of_not_mem {name request : String} {chain : List String} (traces : Traces text name chain)
    (reached : requestAt text name chain.length = some request) (fresh : lowerString request ∉ chain)
    (within : chain.length < maxChain) : Admitted text name chain.length := by
  refine ⟨within, request, reached, fun j before same => fresh ?_⟩
  have earlier := traces j chain[j] (List.getElem?_eq_getElem before)
  rw [same] at earlier
  exact Option.some.inj earlier ▸ List.getElem_mem before

/-- Wherever a walk stands, a base is looked up for each request that is admitted behind it. -/
theorem baseLookups_admitted {name : String} (budget : Nat) (chain : List String) (decl : Declaration)
    (request : String) (i : Nat) (length : chain.length = i + 1) (left : budget + i + 1 = maxChain)
    (traces : Traces text name chain) (reached : requestAt text name i = some request)
    (declared : firstDeclaration? request text = some decl) :
    AdmittedBehind text name i (baseLookups text budget chain decl) := by
  fun_induction baseLookups text budget chain decl generalizing request i with
  | case1 budget chain decl form =>
    have stops : nextRequest text request = none := by
      rw [nextRequest, declared, Option.map_some, form]
    exact admittedBehind_zero (not_admitted_of_none
      (requestAt_behind_stop text reached stops (Nat.lt_succ_self i)))
  | case2 budget chain decl form =>
    have stops : nextRequest text request = none := by
      rw [nextRequest, declared, Option.map_some, form]
      exact if_pos rfl
    exact admittedBehind_zero (not_admitted_of_none
      (requestAt_behind_stop text reached stops (Nat.lt_succ_self i)))
  | case3 budget chain decl base form other repeated =>
    have next := requestAt_succ reached declared form other
    rw [← length] at next
    exact admittedBehind_zero (length ▸ not_admitted_of_mem traces next repeated)
  | case4 chain decl base form other fresh =>
    refine admittedBehind_zero fun admitted => ?_
    have within := admitted.1
    omega
  | case5 chain decl base form other fresh budget missing =>
    have next := requestAt_succ reached declared form other
    have admitted : Admitted text name (i + 1) :=
      length ▸ admitted_of_not_mem traces (length ▸ next) fresh (by omega)
    refine admittedBehind_succ admitted (admittedBehind_zero (not_admitted_of_none ?_))
    exact requestAt_behind_stop text next (nextRequest_of_missing missing) (Nat.lt_succ_self (i + 1))
  | case6 chain decl base form other fresh budget baseDecl baseDeclared inductionHypothesis =>
    have next := requestAt_succ reached declared form other
    have admitted : Admitted text name (i + 1) :=
      length ▸ admitted_of_not_mem traces (length ▸ next) fresh (by omega)
    have longer := traces_append traces (length ▸ next)
    have further : (chain ++ [lowerString base]).length = i + 1 + 1 := by
      rw [List.length_append, List.length_singleton, length]
    exact admittedBehind_succ admitted
      (inductionHypothesis base (i + 1) further (by omega) longer next baseDeclared)

end Walk

section Search

variable (tree : Tree)

/-- Putting slots together shows nothing. -/
theorem assemble_shows (path : String) (found : Found) (inherited : List Method) :
    Shows handle (assemble path found inherited) [] := by
  have missing : Shows handle (remarkMissingStruct found.text found.decl) [] := by
    unfold remarkMissingStruct
    split
    · exact shows_remark _
    · exact shows_pure ()
  exact shows_bind_quiet missing fun _ => shows_bind_quiet (shows_remark _) fun _ => shows_pure _

/-- A header that is inspected is shown. -/
theorem inspect_shows (c : Candidate) (name : String) :
    Shows handle (inspect (Reading.ofTree tree) c name) [c.path.toString] := by
  refine shows_bind_quiet (shows_reading _) fun _ => shows_get fun told => ?_
  dsimp only
  split
  · exact shows_pure _
  · exact shows_bind_quiet (shows_remark _) fun _ => shows_pure _

/-- Laying out a declaration shows its header once for each base that is looked up. -/
theorem layout_shows (c : Candidate) (budget : Nat) (chain : List String) (decl : Declaration) :
    Shows handle (layout (Reading.ofTree tree) c budget chain ⟨fileText tree c.place, decl⟩)
      (List.replicate (baseLookups (fileText tree c.place) budget chain decl) c.path.toString) := by
  fun_induction baseLookups (fileText tree c.place) budget chain decl with
  | case1 budget chain decl classic =>
    rw [layout]
    simp only [classic]
    exact assemble_shows _ _ []
  | case2 budget chain decl form =>
    rw [layout]
    simp only [form, if_true]
    exact assemble_shows _ _ _
  | case3 budget chain decl base form root repeated =>
    rw [layout]
    simp only [form, root, repeated, if_true, if_false]
    exact shows_refuse _
  | case4 chain decl base form root fresh =>
    rw [layout]
    simp only [form, root, fresh, if_false]
    exact shows_refuse _
  | case5 chain decl base form root fresh budget missing =>
    rw [layout]
    simp only [form, root, fresh, if_false]
    rw [List.replicate_one, ← List.append_nil [c.path.toString]]
    refine shows_bind (inspect_yields tree c base) (inspect_shows tree c base) ?_
    rw [missing]
    exact shows_refuse _
  | case6 chain decl base form root fresh budget baseDecl declared inductionHypothesis =>
    rw [layout]
    simp only [form, root, fresh, if_false]
    rw [List.replicate_succ, ← List.singleton_append]
    refine shows_bind (inspect_yields tree c base) (inspect_shows tree c base) ?_
    rw [declared]
    exact shows_bind_quiet inductionHypothesis fun inherited => assemble_shows _ _ inherited

/-- The paths of the headers that are read for a name, in order. -/
def readFor (name : String) : List Candidate → List String
  | [] => []
  | c :: rest => c.path.toString :: match firstDeclaration? name (fileText tree c.place) with
    | none => readFor name rest
    | some decl => List.replicate
      (baseLookups (fileText tree c.place) (maxChain - 1) [lowerString name] decl) c.path.toString

/-- Some headers are shown as they are read for a name. -/
theorem firstIn_shows (name : String) (cs : List Candidate) :
    Shows handle (firstIn (Reading.ofTree tree) name cs) (readFor tree name cs) := by
  induction cs with
  | nil => exact shows_pure none
  | cons c rest inductionHypothesis =>
    refine shows_bind (inspect_yields tree c name) (inspect_shows tree c name) ?_
    cases firstDeclaration? name (fileText tree c.place) with
    | none => exact inductionHypothesis
    | some decl =>
      exact shows_bind_quiet (layout_shows tree c _ _ decl) fun _ => shows_pure _

/-- Some headers are read for a name as the first that declares it decides: all of them if there is none, else
those before it, it, and it again for each base that is looked up. -/
inductive ReadFor (name : String) (cs : List Candidate) : List String → Prop where
  | nowhere (missing : ∀ c ∈ cs, firstDeclaration? name (fileText tree c.place) = none) :
      ReadFor name cs (cs.map fun c => c.path.toString)
  | declared {before after : List Candidate} {c : Candidate} {decl : Declaration} {count : Nat}
      (split : cs = before ++ c :: after)
      (missing : ∀ b ∈ before, firstDeclaration? name (fileText tree b.place) = none)
      (declares : firstDeclaration? name (fileText tree c.place) = some decl)
      (few : count < maxChain) (admitted : AdmittedBehind (fileText tree c.place) name 0 count) :
      ReadFor name cs
        ((before ++ [c]).map (fun c => c.path.toString) ++ List.replicate count c.path.toString)

/-- Headers are read as the first that declares the name decides. -/
theorem readFor_decided (name : String) (cs : List Candidate) :
    ReadFor tree name cs (readFor tree name cs) := by
  induction cs with
  | nil => exact .nowhere (by simp)
  | cons c rest inductionHypothesis =>
    cases declares : firstDeclaration? name (fileText tree c.place) with
    | none =>
      have first : readFor tree name (c :: rest) = c.path.toString :: readFor tree name rest := by
        rw [readFor, declares]
      rw [first]
      generalize readFor tree name rest = paths at inductionHypothesis
      cases inductionHypothesis with
      | nowhere missing => exact .nowhere (List.forall_mem_cons.mpr ⟨declares, missing⟩)
      | @declared before after other decl count split missing declaresIt few admitted =>
        have longer : c :: rest = (c :: before) ++ other :: after := by rw [split, List.cons_append]
        exact .declared longer (List.forall_mem_cons.mpr ⟨declares, missing⟩) declaresIt few admitted
    | some decl =>
      have first : readFor tree name (c :: rest) = c.path.toString :: List.replicate
          (baseLookups (fileText tree c.place) (maxChain - 1) [lowerString name] decl) c.path.toString := by
        rw [readFor, declares]
      have empty : Traces (fileText tree c.place) name [] := by simp [Traces]
      rw [first]
      have atOnce : c :: rest = [] ++ c :: rest := rfl
      refine .declared atOnce (by simp) declares ?_ ?_
      · exact Nat.lt_of_le_of_lt (baseLookups_le _ _ _) (by decide)
      · exact baseLookups_admitted _ _ decl name 0 rfl rfl (traces_append empty rfl) rfl declares

/-- A search shows the headers that it reads. -/
theorem search_shows (name pattern : String) (recurse : Bool) (filter : Filter) :
    Shows handle (search tree (Reading.ofTree tree) name pattern recurse filter)
      (match Discovery.discover tree pattern recurse filter with
        | .error _ => []
        | .ok cs => readFor tree name cs) := by
  rw [search, candidates]
  cases Discovery.discover tree pattern recurse filter with
  | error fault => exact shows_bind_error (yields_throw _) (shows_throw _)
  | ok cs =>
    cases cs with
    | nil => exact shows_bind_error (yields_refuse _) (shows_refuse _)
    | cons c rest =>
      change Shows handle _ ([] ++ readFor tree name (c :: rest))
      refine shows_bind (yields_bind (yields_remark _) (yields_pure _))
        (shows_bind_quiet (shows_remark _) fun _ => shows_pure _) ?_
      refine shows_bind_quiet (firstIn_shows tree name (c :: rest)) fun found => ?_
      cases found with
      | none => exact shows_refuse _
      | some vtable => exact shows_pure _

/-- The calls of a lookup under a handle are shows of the headers that it reads and then, whatever its
outcome, one that clears the handle. -/
theorem statusCalls_find (name pattern : String) (recurse : Bool) (filter : Filter) (named : name ≠ "")
    (some : handle ≠ "") : ∃ paths,
      statusCalls handle (find tree name pattern recurse filter).2 =
        paths.map (.show_ handle) ++ [.clear handle] ∧
      match Discovery.discover tree pattern recurse filter with
        | .error _ => paths = []
        | .ok cs => ReadFor tree name cs paths := by
  have isNamed : name.isEmpty = false := by simpa using named
  have isSome : handle.isEmpty = false := by simpa using some
  have shows_ : Shows handle _ _ := search_shows tree name pattern recurse filter
  obtain ⟨events, told, shown⟩ := shows_ []
  have all : (find tree name pattern recurse filter).2 = events ++ [.over] := by
    rw [find, findReading, isNamed]
    exact congrArg (· ++ [LookupEvent.over]) told
  rw [all, statusCalls, isSome, if_neg Bool.false_ne_true, List.filterMap_append, shown]
  cases Discovery.discover tree pattern recurse filter with
  | error fault => exact ⟨[], rfl, rfl⟩
  | ok cs => exact ⟨readFor tree name cs, rfl, readFor_decided tree name cs⟩

end Search

end Lookup

end ComLayout
