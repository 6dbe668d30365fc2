import ComLayout.Proofs.Header.Declared
import ComLayout.Proofs.Lookup.Lineage

/-!
# The walk of requests

A lookup in one header requests a name, then the base of its declaration, and so on. The walk stops at
the first request that no declaration answers or whose declaration has no base to follow. In an ASCII
text a request that repeats an earlier one up to case makes the walk go round for ever, because the
search for a declaration sees no more of a name than its small letters. So the guard against cycles
refuses exactly the walks that do not stop within the limit.
-/

namespace ComLayout.Lookup

open Header Text

section Walk

variable (text : List Char)

/-- The request that follows another: the base of the declaration, if there is one to follow. -/
def nextRequest (request : String) : Option String :=
  match (firstDeclaration? request text).map Declaration.form with
  | some (.declarative base) => if base = Vtable.rootInterface then none else some base
  | _ => none

/-- The requests of the walk that a name begins, counted from zero. -/
def requestAt (name : String) : Nat → Option String
  | 0 => some name
  | i + 1 => (requestAt name i).bind (nextRequest text)

/-- The walk goes on from each of its requests as a walk of its own. -/
theorem requestAt_add (name : String) (i j : Nat) :
    requestAt text name (i + j) = (requestAt text name i).bind fun request => requestAt text request j := by
  induction j with
  | zero => exact (Option.bind_fun_some _).symm
  | succ j inductionHypothesis =>
    rw [← Nat.add_assoc, requestAt, inductionHypothesis, Option.bind_assoc]
    rfl

/-- A walk that has come to a request has come to all before it. -/
theorem requestAt_isSome_of_le (name : String) {i j : Nat} (order : i ≤ j)
    (reached : (requestAt text name j).isSome = true) : (requestAt text name i).isSome = true := by
  obtain ⟨k, rfl⟩ := Nat.exists_eq_add_of_le order
  rw [requestAt_add] at reached
  cases here : requestAt text name i with
  | none =>
    rw [here] at reached
    exact absurd reached Bool.false_ne_true
  | some request => rfl

/-- Behind the request at which a walk stops there is none. -/
theorem requestAt_behind_stop {name request : String} {m k : Nat}
    (reached : requestAt text name m = some request) (stops : nextRequest text request = none)
    (behind : m < k) : requestAt text name k = none := by
  obtain ⟨further, rfl⟩ := Nat.exists_eq_add_of_lt behind
  have beyond : requestAt text name (m + 1) = none := by
    rw [requestAt, reached, Option.bind_some, stops]
  rw [Nat.add_right_comm, requestAt_add, beyond, Option.bind_none]

/-- A walk stops at one request at most. -/
theorem stop_unique {name r s : String} {i j : Nat} (first : requestAt text name i = some r)
    (firstStops : nextRequest text r = none) (second : requestAt text name j = some s)
    (secondStops : nextRequest text s = none) : i = j := by
  rcases Nat.lt_trichotomy i j with before | same | behind
  · have absent := requestAt_behind_stop text first firstStops before
    exact absurd (second.symm.trans absent) (by simp)
  · exact same
  · have absent := requestAt_behind_stop text second secondStops behind
    exact absurd (first.symm.trans absent) (by simp)

/-- A chain holds the requests of a walk in order, in lower case. -/
def Traces (name : String) (chain : List String) : Prop :=
  ∀ (i : Nat) (key : String), chain[i]? = some key → (requestAt text name i).map lowerString = some key

variable {text}

/-- The next request extends the chain. -/
theorem traces_append {name : String} {chain : List String} {request : String}
    (traces : Traces text name chain) (reached : requestAt text name chain.length = some request) :
    Traces text name (chain ++ [lowerString request]) := by
  intro i key listed
  by_cases before : i < chain.length
  · rw [List.getElem?_append_left before] at listed
    exact traces i key listed
  · have behind : chain.length ≤ i := Nat.le_of_not_lt before
    rw [List.getElem?_append_right behind] at listed
    have last : i - chain.length = 0 := by
      by_contra further
      have outside : [lowerString request].length ≤ i - chain.length := Nat.pos_of_ne_zero further
      rw [List.getElem?_eq_none outside] at listed
      exact absurd listed (by simp)
    have here : i = chain.length := by omega
    rw [last] at listed
    rw [here, reached, ← listed]
    rfl

/-- The names in an ASCII text are ASCII, so every request but the first is. -/
theorem requestAt_ascii (ascii : IsAscii text) {name : String} (asciiName : IsAscii name.toList)
    {i : Nat} {request : String} (reached : requestAt text name i = some request) :
    IsAscii request.toList := by
  cases i with
  | zero =>
    obtain rfl := Option.some.inj reached
    exact asciiName
  | succ i =>
    rw [requestAt] at reached
    obtain ⟨previous, _, next⟩ := Option.bind_eq_some_iff.mp reached
    unfold nextRequest at next
    cases declared : firstDeclaration? previous text with
    | none => simp [declared] at next
    | some decl =>
      cases form : decl.form with
      | classic => simp [declared, form] at next
      | declarative base =>
        have follows : base = request := by
          simp only [declared, form, Option.map_some] at next
          split at next
          · simp at next
          · exact Option.some.inj next
        intro c held
        exact ascii c ((base_of_firstDeclaration? declared form).2 c (by rwa [follows]))

/-- Two ASCII requests with the same lower case are followed by the same walk. -/
theorem requestAt_congr {r s : String} (asciiR : IsAscii r.toList) (asciiS : IsAscii s.toList)
    (same : lowerString r = lowerString s) (i : Nat) :
    requestAt text r (i + 1) = requestAt text s (i + 1) := by
  have alike : nextRequest text r = nextRequest text s := by
    rw [nextRequest, nextRequest,
      firstDeclaration?_congr ((lowerString_eq_iff r s asciiR asciiS).mp same)]
  have first : requestAt text r 1 = requestAt text s 1 := alike
  rw [Nat.add_comm, requestAt_add, requestAt_add, first]

/-- A walk that repeats a request up to case never stops: from the repetition on, it goes round. One round before
each request the walk stands at one that it has reached, and goes on alike from there. -/
theorem requestAt_isSome_of_repeated (ascii : IsAscii text) {name r s : String}
    (asciiName : IsAscii name.toList) {i j : Nat} (order : i < j)
    (first : requestAt text name i = some r) (second : requestAt text name j = some s)
    (same : lowerString r = lowerString s) (m : Nat) : (requestAt text name m).isSome = true := by
  induction m with
  | zero => rfl
  | succ m inductionHypothesis =>
    obtain ⟨t, reached⟩ := Option.isSome_iff_exists.mp inductionHypothesis
    cases next : nextRequest text t with
    | some further => rw [requestAt, reached, Option.bind_some, next, Option.isSome_some]
    | none =>
      have within : j ≤ m := by
        by_contra beyond
        have absent := requestAt_behind_stop text reached next (Nat.lt_of_not_le beyond)
        exact absurd (second.symm.trans absent) (by simp)
      obtain ⟨k, rfl⟩ := Nat.exists_eq_add_of_le within
      have round : requestAt text name (i + (k + 1)) = requestAt text name (j + (k + 1)) := by
        rw [requestAt_add, requestAt_add, first, second, Option.bind_some, Option.bind_some]
        exact requestAt_congr (requestAt_ascii ascii asciiName first)
          (requestAt_ascii ascii asciiName second) same k
      rw [Nat.add_assoc, ← round]
      exact requestAt_isSome_of_le text name (show i + (k + 1) ≤ j + k by omega) inductionHypothesis

/-- What is reported of a walk that does not stop within the limit: its requests in order, in lower case.
The last repeats an earlier one or goes one beyond the limit. -/
structure EndlessChain (text : List Char) (name : String) (chain : List String) : Prop where
  traces : Traces text name chain
  short : chain.length ≤ maxChain + 1
  ends : (∃ earlier key, chain = earlier ++ [key] ∧ key ∈ earlier) ∨ chain.length = maxChain + 1

/-- How the slots of the declaration that answers a walk's first request are resolved: the walk stops
within the limit at a declaration, or at a name that is not declared, or it is found not to stop. -/
inductive Resolved (text : List Char) (path name : String) : Except LookupError (List Method) → Prop where
  | slots {m : Nat} {request : String} {decl : Declaration} {methods : List Method} (within : m < maxChain)
      (reached : requestAt text name m = some request)
      (declared : firstDeclaration? request text = some decl) (stops : nextRequest text request = none) :
      Resolved text path name (.ok methods)
  | undeclared {m : Nat} {request base : String} {decl : Declaration} (within : m + 1 < maxChain)
      (reached : requestAt text name m = some request)
      (declared : firstDeclaration? request text = some decl)
      (next : requestAt text name (m + 1) = some base) (missing : firstDeclaration? base text = none) :
      Resolved text path name (.error (.baseUnresolved decl.name base path))
  | cyclic {chain : List String} (endless : EndlessChain text name chain) :
      Resolved text path name (.error (.inheritanceCycle chain))

/-- What is computed from slots is resolved as they are. -/
theorem resolved_map {path name : String} {result : Except LookupError (List Method)}
    (resolved : Resolved text path name result) (f : List Method → List Method) :
    Resolved text path name (result.map f) := by
  cases resolved with
  | slots within reached declared stops => exact .slots within reached declared stops
  | undeclared within reached declared next missing =>
    exact .undeclared within reached declared next missing
  | cyclic endless => exact .cyclic endless

/-- A declaration with a base to follow names the next request. -/
theorem requestAt_succ {name request base : String} {i : Nat} {decl : Declaration}
    (reached : requestAt text name i = some request)
    (declared : firstDeclaration? request text = some decl) (form : decl.form = .declarative base)
    (other : base ≠ Vtable.rootInterface) : requestAt text name (i + 1) = some base := by
  rw [requestAt, reached, Option.bind_some, nextRequest, declared, Option.map_some, form]
  exact if_neg other

/-- Wherever a walk stands, the slots of the declaration there are resolved as the walk goes on. The
chain holds the requests up to there and the budget counts those that are still admitted. -/
theorem slotsOf_resolved (path name : String) (budget : Nat) (chain : List String) (decl : Declaration)
    (request : String) (i : Nat) (length : chain.length = i + 1) (admitted : budget + i + 1 = maxChain)
    (traces : Traces text name chain) (reached : requestAt text name i = some request)
    (declared : firstDeclaration? request text = some decl) :
    Resolved text path name (slotsOf text path budget chain decl) := by
  fun_induction slotsOf text path budget chain decl generalizing request i with
  | case1 budget chain decl form =>
    refine .slots (by omega) reached declared ?_
    rw [nextRequest, declared, Option.map_some, form]
  | case2 budget chain decl form =>
    refine .slots (by omega) reached declared ?_
    rw [nextRequest, declared, Option.map_some, form]
    exact if_pos rfl
  | case3 budget chain decl base form other repeated =>
    have next := requestAt_succ reached declared form other
    have longer := traces_append traces (length ▸ next)
    refine .cyclic ⟨longer, ?_, .inl ⟨chain, lowerString base, rfl, repeated⟩⟩
    rw [List.length_append, List.length_singleton]
    omega
  | case4 chain decl base form other fresh =>
    have next := requestAt_succ reached declared form other
    have longer := traces_append traces (length ▸ next)
    have long : (chain ++ [lowerString base]).length = maxChain + 1 := by
      rw [List.length_append, List.length_singleton]
      omega
    exact .cyclic ⟨longer, Nat.le_of_eq long, .inr long⟩
  | case5 chain decl base form other fresh budget missing =>
    have next := requestAt_succ reached declared form other
    exact .undeclared (by omega) reached declared next missing
  | case6 chain decl base form other fresh budget baseDecl baseDeclared inductionHypothesis =>
    have next := requestAt_succ reached declared form other
    have longer := traces_append traces (length ▸ next)
    have further : (chain ++ [lowerString base]).length = i + 1 + 1 := by
      rw [List.length_append, List.length_singleton, length]
    have rest := inductionHypothesis base (i + 1) further (by omega) longer next baseDeclared
    exact resolved_map rest _

/-- The slots of a declaration that was requested by name are resolved as the walk from that name goes. -/
theorem resolved_of_declared (path : String) {name : String} {decl : Declaration}
    (declared : firstDeclaration? name text = some decl) :
    Resolved text path name (slotsOf text path (maxChain - 1) [lowerString name] decl) := by
  have empty : Traces text name [] := by simp [Traces]
  have first : Traces text name [lowerString name] := traces_append empty rfl
  exact slotsOf_resolved path name (maxChain - 1) _ decl name 0 rfl rfl first rfl declared

section Decision

variable {path name : String} {result : Except LookupError (List Method)}

/-- A chain is reported only of a walk that does not stop within the limit. -/
theorem not_stopped_of_endlessChain (ascii : IsAscii text) (asciiName : IsAscii name.toList)
    {chain : List String} (endless : EndlessChain text name chain) :
    (requestAt text name maxChain).isSome = true := by
  have traces := endless.traces
  rcases endless.ends with ⟨earlier, key, rfl, held⟩ | long
  · obtain ⟨i, listed⟩ := List.mem_iff_getElem?.mp held
    have inside : i < earlier.length := (List.getElem?_eq_some_iff.mp listed).1
    have first := traces i key (by rw [List.getElem?_append_left inside, listed])
    have second := traces earlier.length key (by simp)
    obtain ⟨r, reachedR, keyR⟩ := Option.map_eq_some_iff.mp first
    obtain ⟨s, reachedS, keyS⟩ := Option.map_eq_some_iff.mp second
    exact requestAt_isSome_of_repeated ascii asciiName inside reachedR reachedS (keyR.trans keyS.symm) _
  · have within : maxChain < chain.length := by omega
    have last := traces maxChain chain[maxChain] (List.getElem?_eq_getElem within)
    obtain ⟨r, reached, _⟩ := Option.map_eq_some_iff.mp last
    rw [reached, Option.isSome_some]

/-- A walk that stops within the limit does not come to the limit. -/
theorem not_endless_of_stopped {request : String} {m : Nat} (within : m < maxChain)
    (reached : requestAt text name m = some request) (stops : nextRequest text request = none) :
    ¬ (requestAt text name maxChain).isSome = true := by
  rw [requestAt_behind_stop text reached stops within]
  exact Bool.false_ne_true

/-- Nothing follows a request that is not declared. -/
theorem nextRequest_of_missing {request : String} (missing : firstDeclaration? request text = none) :
    nextRequest text request = none := by
  rw [nextRequest, missing, Option.map_none]

/-- There are slots if the walk stops within the limit at a declaration. -/
theorem slots_of_stopped (ascii : IsAscii text) (asciiName : IsAscii name.toList)
    (resolved : Resolved text path name result) {m : Nat} {request : String} {decl : Declaration}
    (within : m < maxChain) (reached : requestAt text name m = some request)
    (declared : firstDeclaration? request text = some decl) (stops : nextRequest text request = none) :
    ∃ methods, result = .ok methods := by
  cases resolved with
  | @slots _ _ _ methods => exact ⟨methods, rfl⟩
  | undeclared _ _ _ next missing =>
    obtain rfl := stop_unique text reached stops next (nextRequest_of_missing missing)
    obtain rfl := Option.some.inj (reached.symm.trans next)
    exact absurd (declared.symm.trans missing) (by simp)
  | cyclic endless =>
    exact absurd (not_stopped_of_endlessChain ascii asciiName endless)
      (not_endless_of_stopped within reached stops)

/-- The missing base is named if the walk stops within the limit at a name that is not declared. -/
theorem unresolved_of_stopped (ascii : IsAscii text) (asciiName : IsAscii name.toList)
    (resolved : Resolved text path name result) {m : Nat} {request base : String}
    (within : m + 1 < maxChain) (reached : requestAt text name m = some request)
    (next : requestAt text name (m + 1) = some base) (missing : firstDeclaration? base text = none) :
    ∃ decl, firstDeclaration? request text = some decl ∧
      result = .error (.baseUnresolved decl.name base path) := by
  have stops : nextRequest text base = none := nextRequest_of_missing missing
  cases resolved with
  | slots _ reachedOther declared stopsOther =>
    obtain rfl := stop_unique text next stops reachedOther stopsOther
    obtain rfl := Option.some.inj (next.symm.trans reachedOther)
    exact absurd (declared.symm.trans missing) (by simp)
  | @undeclared n _ _ decl _ reachedOther declared nextOther missingOther =>
    have same := stop_unique text next stops nextOther (nextRequest_of_missing missingOther)
    obtain rfl : m = n := Nat.succ.inj same
    obtain rfl := Option.some.inj (reached.symm.trans reachedOther)
    obtain rfl := Option.some.inj (next.symm.trans nextOther)
    exact ⟨decl, declared, rfl⟩
  | cyclic endless =>
    exact absurd (not_stopped_of_endlessChain ascii asciiName endless)
      (not_endless_of_stopped within next stops)

/-- A chain is reported if the walk does not stop within the limit. -/
theorem cycle_of_not_stopped (resolved : Resolved text path name result)
    (beyond : (requestAt text name maxChain).isSome = true) :
    ∃ chain, result = .error (.inheritanceCycle chain) ∧ EndlessChain text name chain := by
  cases resolved with
  | slots within reached _ stops => exact absurd beyond (not_endless_of_stopped within reached stops)
  | undeclared within _ _ next missing =>
    exact absurd beyond (not_endless_of_stopped within next (nextRequest_of_missing missing))
  | @cyclic chain endless => exact ⟨chain, rfl, endless⟩

/-- A walk stops at the last declaration of a lineage. -/
theorem stops_of_lineage {request : String} {decls : List Declaration}
    (lineage : Lineage text request decls) : ∃ (m : Nat) (last : String) (decl : Declaration),
      m + 1 = decls.length ∧ requestAt text request m = some last ∧
      firstDeclaration? last text = some decl ∧ nextRequest text last = none := by
  induction lineage with
  | @classic request decl declared form =>
    refine ⟨0, request, decl, rfl, rfl, declared, ?_⟩
    rw [nextRequest, declared, Option.map_some, form]
  | @root request decl declared form =>
    refine ⟨0, request, decl, rfl, rfl, declared, ?_⟩
    rw [nextRequest, declared, Option.map_some, form]
    exact if_pos rfl
  | @derived request base decl bases declared form other _ inductionHypothesis =>
    obtain ⟨m, last, lastDecl, length, reached, lastDeclared, stops⟩ := inductionHypothesis
    refine ⟨m + 1, last, lastDecl, by rw [List.length_cons, length], ?_, lastDeclared, stops⟩
    have next : requestAt text request 1 = some base := requestAt_succ rfl declared form other
    rw [Nat.add_comm, requestAt_add, next, Option.bind_some, reached]

/-- In an ASCII header every lineage within the limit is laid out. -/
theorem slotsOf_of_lineage (ascii : IsAscii text) (asciiName : IsAscii name.toList) {decl : Declaration}
    {bases : List Declaration} (lineage : Lineage text name (decl :: bases))
    (short : (decl :: bases).length ≤ maxChain) :
    ∃ methods, slotsOf text path (maxChain - 1) [lowerString name] decl = .ok methods ∧
      methods.map Method.slot = lineageSlots text (decl :: bases) ∧ Numbered methods := by
  obtain ⟨_, _, split, declared⟩ := lineage_head lineage
  obtain ⟨rfl, rfl⟩ := List.cons.inj split
  obtain ⟨m, last, lastDecl, length, reached, lastDeclared, stops⟩ := stops_of_lineage lineage
  obtain ⟨methods, laidOut⟩ := slots_of_stopped ascii asciiName (resolved_of_declared path declared)
    (by omega) reached lastDeclared stops
  obtain ⟨decls, other, _, slots, numbered⟩ :=
    lineage_of_slotsOf text path _ _ name decl methods declared laidOut
  rw [lineage_unique other lineage] at slots
  exact ⟨methods, laidOut, slots, numbered⟩

end Decision

end Walk

/-- How the walk of requests decides a lookup in one header. It succeeds if the walk stops within the
limit at a declaration. It names what is missing, and the interface that asks for it, if the walk stops
within the limit at a name that is not declared. It reports a chain if and only if the walk does not stop
within the limit. -/
structure DecidedByWalk (text : List Char) (name pattern path : String)
    (result : Except SearchFault Vtable) : Prop where
  found : ∀ (m : Nat) (request : String) (decl : Declaration), m < maxChain →
    requestAt text name m = some request → firstDeclaration? request text = some decl →
    nextRequest text request = none → ∃ vtable, result = .ok vtable
  missing : firstDeclaration? name text = none →
    result = .error (.lookup (.interfaceNotFound name pattern 1))
  undeclared : ∀ (m : Nat) (request base : String), m + 1 < maxChain →
    requestAt text name m = some request → requestAt text name (m + 1) = some base →
    firstDeclaration? base text = none → ∃ decl, firstDeclaration? request text = some decl ∧
      result = .error (.lookup (.baseUnresolved decl.name base path))
  endless : (requestAt text name maxChain).isSome = true → ∃ chain,
    result = .error (.lookup (.inheritanceCycle chain)) ∧ EndlessChain text name chain
  guarded : ∀ chain, result = .error (.lookup (.inheritanceCycle chain)) →
    (requestAt text name maxChain).isSome = true

/-- A name that is not declared is reported as such, whatever the header declares. -/
theorem decidedByWalk_of_missing {text : List Char} {name : String} (pattern path : String)
    (missing : firstDeclaration? name text = none) :
    DecidedByWalk text name pattern path (.error (.lookup (.interfaceNotFound name pattern 1))) := by
  have stops : nextRequest text name = none := nextRequest_of_missing missing
  have start : requestAt text name 0 = some name := rfl
  have only (m : Nat) : requestAt text name (m + 1) = none :=
    requestAt_behind_stop text start stops (Nat.succ_pos m)
  constructor
  · intro m request decl _ reached declared stopsThere
    obtain rfl := stop_unique text start stops reached stopsThere
    obtain rfl := Option.some.inj reached
    exact absurd (declared.symm.trans missing) (by simp)
  · intro _
    rfl
  · intro m request base _ _ next _
    exact absurd (next.symm.trans (only m)) (by simp)
  · intro beyond
    exact absurd beyond (not_endless_of_stopped (by decide) start stops)
  · intro chain reported
    simp at reported

/-- Where a name is declared, the walk decides how the slots of its declaration are resolved. -/
theorem decidedByWalk_of_declared {text : List Char} {name path : String} (ascii : IsAscii text)
    (asciiName : IsAscii name.toList) {decl : Declaration}
    (declared : firstDeclaration? name text = some decl) (pattern : String) (f : List Method → Vtable) :
    DecidedByWalk text name pattern path
      (((slotsOf text path (maxChain - 1) [lowerString name] decl).map f).mapError .lookup) := by
  have resolved := resolved_of_declared path declared
  generalize slotsOf text path (maxChain - 1) [lowerString name] decl = result at resolved ⊢
  constructor
  · intro m request other within reached declaredThere stops
    obtain ⟨methods, rfl⟩ := slots_of_stopped ascii asciiName resolved within reached declaredThere stops
    exact ⟨f methods, rfl⟩
  · intro missing
    exact absurd (declared.symm.trans missing) (by simp)
  · intro m request base within reached next missing
    obtain ⟨other, declaredThere, rfl⟩ :=
      unresolved_of_stopped ascii asciiName resolved within reached next missing
    exact ⟨other, declaredThere, rfl⟩
  · intro beyond
    obtain ⟨chain, rfl, endless⟩ := cycle_of_not_stopped resolved beyond
    exact ⟨chain, rfl, endless⟩
  · intro chain reported
    cases resolved with
    | slots => simp [Except.map] at reported
    | undeclared => simp [Except.map] at reported
    | cyclic endless => exact not_stopped_of_endlessChain ascii asciiName endless

/-- A lookup of an ASCII name in one ASCII header is decided by the walk of requests that the name begins.

The walk goes from a name to the base of the declaration under that name, and stops at a name that is not declared, at
a generated declaration, and where the base is the root. If it stops within the limit, the lookup succeeds, or names
the base that is missing and what asks for it. A chain is reported exactly if it does not stop within the limit; the
chain begins with the requests of the walk, and its last member repeats an earlier one or is the one with which the
limit is reached.

The guard compares requests in lower case. In ASCII text, requests that are the same in lower case are declared by the
same declarations, so a walk that repeats a request goes round and never stops. The recursion of the lookup is
followed request by request: each round either takes the next step of the walk or reports why it cannot. For a
character beyond ASCII the lower case may agree where the declarations differ, which is why header and name are
restricted. -/
theorem find_decided_by_walk {tree : Tree} {pattern : String} {place : Location}
    (leads : LeadsToFile tree pattern place) (bytes : ByteArray)
    (holds : tree.contents? place = some bytes) (asciiBytes : ∀ b ∈ bytes.data.toList, b < 0x80)
    (name : String) (named : name ≠ "") (asciiName : IsAscii name.toList) (recurse : Bool) :
    DecidedByWalk (fileText tree place) name pattern (Path.ofString pattern).toString
      (find tree name pattern recurse Filter.none).1 := by
  have ascii : IsAscii (fileText tree place) := by
    rw [fileText, holds]
    exact isAscii_unifyLineEnds _ (isAscii_decodeLossy _ asciiBytes)
  rw [find_in_file leads name recurse named]
  cases declared : firstDeclaration? name (fileText tree place) with
  | none => exact decidedByWalk_of_missing pattern _ declared
  | some decl => exact decidedByWalk_of_declared ascii asciiName declared pattern _

/-- The walk from a derived interface stops at its base, which the header declares. -/
theorem derived_decided_by_walk :
    requestAt (fileText derivedTree ["d2d1.h"]) "iderived" 1 = some "ibase" ∧
    DecidedByWalk (fileText derivedTree ["d2d1.h"]) "iderived" "d2d1.h" (Path.ofString "d2d1.h").toString
      (find derivedTree "iderived" "d2d1.h" true Filter.none).1 := by
  have leads : LeadsToFile derivedTree "d2d1.h" ["d2d1.h"] := ⟨by decide +kernel, by decide +kernel⟩
  have holds : derivedTree.contents? ["d2d1.h"] = some derivedHeader.toUTF8 := by rfl
  have ascii : ∀ b ∈ derivedHeader.toUTF8.data.toList, b < 0x80 := by decide +kernel
  have asciiName : IsAscii "iderived".toList := by decide
  refine ⟨by decide +kernel, ?_⟩
  exact find_decided_by_walk leads derivedHeader.toUTF8 holds ascii "iderived" (by decide) asciiName true

end ComLayout.Lookup
