import ComLayout.Glob.Expansion
import ComLayout.Proofs.Files.Below
import Mathlib.Data.List.TakeDrop

/-!
# Where a pattern leads

A pattern is expanded from its fixed root, the path of its leading components without wildcards. Every step
goes on from an entry by names that stand as they are in a spelling. So what a pattern leads to lies at or
below its fixed root, and the path to it is readable.
-/

namespace ComLayout.Glob

/-- A step that goes by a name goes by a component. -/
def Step.Spellable : Step → Prop
  | .entry name => Component name
  | .stay | .wild _ _ | .deep => True

/-- The step for a text without slashes is spellable. -/
theorem spellable_ofComponent (recurse : Bool) (component : String)
    (whole : '/' ∉ component.toList) : (Step.ofComponent recurse component).Spellable := by
  unfold Step.ofComponent
  split
  next => trivial
  next other =>
    split
    next =>
      rw [not_or] at other
      have filled : component.toList ≠ [] := by simpa using other.1
      have apart : component.toList ≠ ['.'] := fun same => other.2 (String.toList_inj.mp same)
      exact ⟨by simp [Path.isComponent, filled, apart], whole⟩
    next => split <;> trivial

/-- The path to one entry goes on from the path to another, by components. -/
def Reached.LeadsOn (r s : Reached) : Prop :=
  ∃ names, s.spelled = r.spelled ++ names ∧ ∀ name ∈ names, Component name

/-- The path to an entry goes on from itself. -/
theorem Reached.LeadsOn.refl (r : Reached) : r.LeadsOn r := ⟨[], by simp⟩

/-- What goes on from a path that goes on does so as a whole. -/
theorem Reached.LeadsOn.trans {r s u : Reached} (first : r.LeadsOn s) (second : s.LeadsOn u) : r.LeadsOn u := by
  obtain ⟨front, split, components⟩ := first
  obtain ⟨back, onward, others⟩ := second
  refine ⟨front ++ back, by rw [onward, split, List.append_assoc], fun name member => ?_⟩
  rcases List.mem_append.mp member with before | behind
  · exact components name before
  · exact others name behind

/-- No names lead from an entry to itself. -/
@[simp] theorem Reached.descend_nil (r : Reached) : r.descend [] = r := by simp [descend]

/-- Names one after the other lead where they lead as a whole. -/
@[simp] theorem Reached.descend_descend (r : Reached) (front back : List String) :
    (r.descend front).descend back = r.descend (front ++ back) := by simp [descend]

/-- Where names lead from an entry. -/
@[simp] theorem Reached.place_descend (r : Reached) (names : List String) :
    (r.descend names).place = r.place ++ names := rfl

/-- How the path to which names lead from an entry is spelled. -/
@[simp] theorem Reached.path_descend (r : Reached) (names : List String) :
    (r.descend names).path = r.path.append names := rfl

/-- Names that entries can have lead on. -/
theorem Reached.leadsOn_descend (r : Reached) {names : List String}
    (entries : ∀ name ∈ names, isEntryName name = true) : r.LeadsOn (r.descend names) :=
  ⟨names, rfl, fun name member => component_of_isEntryName (entries name member)⟩

variable {tree : Tree} {last : Bool} {r s : Reached} {step : Step}

/-- What may be reached was found. -/
theorem mem_admitted {found : List Reached} :
    s ∈ Reached.admitted tree last found ↔ s ∈ found ∧ (last = true ∨ tree.isDir s.place = true) := by
  unfold Reached.admitted
  cases last <;> simp

/-- A step onward leads on. -/
theorem leadsOn_onward (spellable : step.Spellable) (member : s ∈ step.onward tree last r) : r.LeadsOn s := by
  cases step with
  | stay => exact List.mem_singleton.mp member ▸ .refl r
  | entry name =>
    obtain ⟨place, -, rfl⟩ := Option.map_eq_some_iff.mp (Option.mem_toList.mp member)
    have component : Component name := spellable
    exact ⟨[name], rfl, by simpa using component⟩
  | wild hidden pieces =>
    obtain ⟨name, among, rfl⟩ := List.mem_map.mp (mem_admitted.mp member).1
    have entry := Tree.isEntryName_of_mem_children (List.mem_filter.mp among).1
    exact r.leadsOn_descend (by simpa using entry)
  | deep =>
    obtain ⟨names, among, rfl⟩ := List.mem_map.mp (mem_admitted.mp member).1
    exact r.leadsOn_descend (Tree.isEntryName_of_mem_below (List.mem_filter.mp among).1)

/-- A step leads from a directory onward, and by recursion to itself. -/
theorem mem_lead : s ∈ step.lead tree last r ↔
    (step = .deep ∧ s = r) ∨ (tree.holdsDir r.path = true ∧ s ∈ step.onward tree last r) := by
  simp only [Step.lead]
  split
  next deep =>
    rw [List.mem_cons, List.mem_ite_nil_right]
    simp [deep]
  next other =>
    rw [List.mem_ite_nil_right]
    simp [other]

/-- A step leads on. -/
theorem leadsOn_lead (spellable : step.Spellable) (member : s ∈ step.lead tree last r) : r.LeadsOn s := by
  rcases mem_lead.mp member with ⟨-, rfl⟩ | ⟨-, further⟩
  · exact .refl s
  · exact leadsOn_onward spellable further

/-- Steps one after the other lead on from an entry. -/
theorem leadsOn_expandSteps {steps : List Step} {reached : List Reached}
    (spellable : ∀ step ∈ steps, step.Spellable) (member : s ∈ expandSteps tree steps reached) :
    ∃ r ∈ reached, r.LeadsOn s := by
  induction steps generalizing reached with
  | nil => exact ⟨s, member, .refl s⟩
  | cons step rest inductionHypothesis =>
    obtain ⟨u, among, onward⟩ :=
      inductionHypothesis (fun later within => spellable later (List.mem_cons_of_mem step within)) member
    obtain ⟨r, inside, led⟩ := List.mem_flatMap.mp (List.mem_eraseDups.mp among)
    exact ⟨r, inside, (leadsOn_lead (spellable step List.mem_cons_self) led).trans onward⟩

/-- The components of a pattern from the first with a wildcard on. -/
def behindRoot (pattern : String) : List String :=
  (components pattern).dropWhile fun component => !hasWildcard component

/-- No component of a pattern holds a slash. -/
theorem whole_of_mem_components {pattern component : String}
    (member : component ∈ components pattern) : '/' ∉ component.toList := by
  have piece : component ∈ (Path.pieces pattern.toList).map String.ofList := by
    rcases List.mem_append.mp member with before | final
    · exact List.dropLast_subset _ (List.mem_filter.mp before).1
    · exact List.mem_of_getLast? (Option.mem_toList.mp final)
  obtain ⟨cut, among, rfl⟩ := List.mem_map.mp piece
  simpa using Text.separator_not_mem_split '/' pattern.toList cut among

/-- The components of a pattern in two parts, joined by a slash, are those that are not empty of the first and
the components of the second. -/
theorem components_slash (front back : String) :
    components (front ++ "/" ++ back) =
      ((Path.pieces front.toList).map String.ofList).filter (· != "") ++ components back := by
  have filled : (Path.pieces back.toList).map String.ofList ≠ [] := by
    intro none
    have pieces := Text.split_length '/' back.toList
    rw [← Path.pieces, List.map_eq_nil_iff.mp none] at pieces
    simp at pieces
  have cut : Path.pieces (front ++ "/" ++ back).toList = Path.pieces front.toList ++ Path.pieces back.toList := by
    simpa [Path.pieces] using Text.split_both '/' front.toList back.toList
  rw [components, components, cut, List.map_append, List.dropLast_append_of_ne_nil filled, List.filter_append,
    List.getLast?_append, List.getLast?_eq_some_getLast filled, Option.some_or, List.append_assoc]

/-- The components of a pattern that name something are the names of the path that it spells. -/
theorem filter_components (pattern : String) :
    (components pattern).filter (fun component => Path.isComponent component.toList) =
      (Path.ofString pattern).names := by
  have named : ∀ pieces : List String,
      (pieces.filter (· != "")).filter (fun component => Path.isComponent component.toList) =
        pieces.filter fun component => Path.isComponent component.toList := by
    intro pieces
    rw [List.filter_filter]
    refine List.filter_congr fun piece _ => ?_
    cases kept : Path.isComponent piece.toList with
    | false => rfl
    | true =>
      have filled : piece ≠ "" := by
        rintro rfl
        exact Bool.noConfusion kept
      simp [filled]
  have joined (pieces : List String) : pieces.dropLast ++ pieces.getLast?.toList = pieces := by
    cases pieces with
    | nil => rfl
    | cons first more => simp [List.getLast?_eq_some_getLast, List.dropLast_concat_getLast]
  rw [components, List.filter_append, named, ← List.filter_append, joined, Path.ofString, List.filter_map]
  simp [Function.comp_def]

/-- Leaving out some members commutes with stopping, if it never stops at one that is left out. -/
theorem takeWhile_filter {α : Type} {kept onward : α → Bool} {members : List α}
    (passed : ∀ member ∈ members, kept member = false → onward member = true) :
    (members.filter kept).takeWhile onward = (members.takeWhile onward).filter kept := by
  induction members with
  | nil => rfl
  | cons first rest inductionHypothesis =>
    have later := inductionHypothesis fun member among => passed member (List.mem_cons_of_mem first among)
    cases keep : kept first with
    | true => cases go : onward first <;> simp [keep, go, later]
    | false =>
      have go : onward first = true := passed first List.mem_cons_self keep
      simp [keep, go, later]

/-- A text that names nothing, because it is empty or a single dot, has no wildcard. -/
theorem hasWildcard_of_unnamed {component : String} (unnamed : Path.isComponent component.toList = false) :
    hasWildcard component = false := by
  have spelled : component.toList = "".toList ∨ component.toList = ".".toList := by
    simpa [Path.isComponent, Classical.or_iff_not_imp_left] using unnamed
  rw [String.toList_inj, String.toList_inj] at spelled
  rcases spelled with rfl | rfl <;> rfl

/-- The components before the first with a wildcard spell the fixed root, if there is such a component. Only the
last component of a pattern may be empty, and it is not among those in front. -/
theorem ofString_front {pattern : String} (wild : behindRoot pattern ≠ []) :
    Path.ofString (String.intercalate "/"
      ((components pattern).takeWhile fun component => !hasWildcard component)) =
        ⟨.none, (fixedRoot pattern).names⟩ := by
  have split : (components pattern).takeWhile (fun component => !hasWildcard component) ++
      behindRoot pattern = components pattern := List.takeWhile_append_dropWhile
  have filled : ∀ component ∈ (components pattern).takeWhile fun component => !hasWildcard component,
      component ≠ "" := by
    intro component member
    have inside : (components pattern).takeWhile (fun component => !hasWildcard component) <+:
        ((Path.pieces pattern.toList).map String.ofList).dropLast.filter (· != "") := by
      refine List.prefix_of_prefix_length_le (List.takeWhile_prefix _) (List.prefix_append _ _) ?_
      have lengths := congrArg List.length split
      have someBehind := List.length_pos_iff.mpr wild
      have oneLast := Option.length_toList_le (o := ((Path.pieces pattern.toList).map String.ofList).getLast?)
      rw [List.length_append, components, List.length_append] at lengths
      rw [components]
      omega
    simpa using (List.mem_filter.mp (inside.subset member)).2
  have whole : ∀ component ∈ (components pattern).takeWhile fun component => !hasWildcard component,
      '/' ∉ component.toList :=
    fun component member => whole_of_mem_components ((List.takeWhile_sublist _).subset member)
  have unnamed : ∀ component ∈ components pattern,
      Path.isComponent component.toList = false → (!hasWildcard component) = true :=
    fun component _ unnamed => by rw [hasWildcard_of_unnamed unnamed, Bool.not_false]
  have joined := Path.ofString_joined .none filled whole
  rw [Anchor.spelling, String.empty_append] at joined
  rw [joined, ← takeWhile_filter unnamed, filter_components]
  rfl

/-- A pattern is expanded from its fixed root. -/
theorem expand_eq (tree : Tree) (pattern : String) (recurse : Bool) :
    expand tree pattern recurse =
      if maxDepth < (behindRoot pattern).length then .error .tooDeep
      else if (Path.ofString pattern).anchor = .none ∧ behindRoot pattern ≠ [] then
        expandFrom tree (fixedRoot pattern) ((behindRoot pattern).map (Step.ofComponent recurse))
      else .ok [] := by
  have cut : (components pattern).span (fun component => !hasWildcard component) =
      ((components pattern).takeWhile fun component => !hasWildcard component, behindRoot pattern) :=
    List.span_eq_takeWhile_dropWhile ..
  simp only [expand, cut, Bool.and_eq_true, decide_eq_true_eq, Bool.not_eq_true', List.isEmpty_eq_false_iff]
  split
  next => rfl
  next =>
    split
    next leads =>
      have front : fixedRoot pattern = ⟨.none, (fixedRoot pattern).names⟩ := by
        rw [← leads.1]
        rfl
      rw [ofString_front leads.2, ← front]
    next => rfl

/-- From an entry, steps are taken unless recursion comes too deep. -/
theorem expandFrom_of_exists {front : Path} {place : Location} (located : tree.locate front = .ok place)
    (inUse : tree.exists? place = true) (steps : List Step) :
    expandFrom tree front steps =
      if stepsSink tree steps [⟨front.names, place⟩] then .error .tooDeep
      else .ok (expandSteps tree steps [⟨front.names, place⟩]) := by
  simp only [expandFrom, located, inUse, Bool.not_true, Bool.false_eq_true, if_false]

/-- What steps lead to from a path is nothing, unless they are taken from an entry there. -/
theorem expandFrom_eq_ok {front : Path} {steps : List Step} {reached : List Reached}
    (expanded : expandFrom tree front steps = .ok reached) :
    reached = [] ∨ ∃ place, reached = expandSteps tree steps [⟨front.names, place⟩] := by
  unfold expandFrom at expanded
  split at expanded
  next place located =>
    split at expanded
    next => exact .inl (Except.ok.inj expanded).symm
    next =>
      split at expanded
      next => cases expanded
      next => exact .inr ⟨place, (Except.ok.inj expanded).symm⟩
  next => cases expanded
  next => exact .inl (Except.ok.inj expanded).symm

/-- The fixed root of a pattern is readable. -/
theorem readable_fixedRoot (pattern : String) : (fixedRoot pattern).Readable :=
  fun name member => Path.readable_ofString pattern name ((List.takeWhile_sublist _).subset member)

/-- What a pattern leads to lies at or below its fixed root, which has no anchor then. -/
theorem leadsOn_expand {pattern : String} {recurse : Bool} {reached : List Reached}
    (expanded : expand tree pattern recurse = .ok reached) :
    ∀ s ∈ reached, (fixedRoot pattern).anchor = .none ∧ ∃ names,
      s.spelled = (fixedRoot pattern).names ++ names ∧ ∀ name ∈ names, Component name := by
  rw [expand_eq] at expanded
  split at expanded
  next => simp at expanded
  next =>
    split at expanded
    next leads =>
      rcases expandFrom_eq_ok expanded with rfl | ⟨place, rfl⟩
      · simp
      · intro s member
        have spellable : ∀ step ∈ (behindRoot pattern).map (Step.ofComponent recurse), step.Spellable := by
          intro step among
          obtain ⟨component, behind, rfl⟩ := List.mem_map.mp among
          exact spellable_ofComponent recurse component
            (whole_of_mem_components ((List.dropWhile_sublist _).subset behind))
        obtain ⟨r, single, onward⟩ := leadsOn_expandSteps spellable member
        obtain rfl := List.mem_singleton.mp single
        exact ⟨leads.1, onward⟩
    next =>
      obtain rfl := Except.ok.inj expanded
      simp

/-- What a pattern leads to has readable paths. -/
theorem readable_expand {pattern : String} {recurse : Bool} {reached : List Reached}
    (expanded : expand tree pattern recurse = .ok reached) : ∀ s ∈ reached, s.path.Readable := by
  intro s member
  obtain ⟨-, names, spelled, components⟩ := leadsOn_expand expanded s member
  intro name inside
  rw [Reached.path, spelled] at inside
  rcases List.mem_append.mp inside with before | behind
  · exact readable_fixedRoot pattern name before
  · exact components name behind

end ComLayout.Glob
