import ComLayout.Proofs.Discovery.Directories

/-!
# Recursion adds headers

Without recursion a component `**` of a pattern stands for the entries of a directory that are not hidden, and
with recursion for the directory itself and for all that is not hidden below. So each step leads at least where it
did, and by induction so does the whole pattern. In a directory recursion finds what lies deeper besides. What is
found without recursion is lost only where recursion meets a path that is too long to be looked at, or directories
too far below one another to be entered: then nothing is listed at all.
-/

namespace ComLayout

namespace Glob

variable {tree : Tree} {last : Bool} {r s : Reached}

/-- Recursion changes nothing but the step for `**`, which otherwise matches names that are not hidden. -/
theorem ofComponent_cases (component : String) :
    Step.ofComponent true component = Step.ofComponent false component ∨
      (Step.ofComponent true component = .deep ∧ ∃ pieces, Step.ofComponent false component = .wild false pieces) := by
  by_cases deep : component = "**"
  · exact .inr ⟨by rw [deep]; decide, piecesOf component, by rw [deep]; decide⟩
  · simp [Step.ofComponent, deep]

/-- With recursion a component leads at least where it does without. -/
theorem lead_recursive {component : String} (member : s ∈ (Step.ofComponent false component).lead tree last r) :
    s ∈ (Step.ofComponent true component).lead tree last r := by
  rcases ofComponent_cases component with same | ⟨deep, pieces, wild⟩
  · rwa [same]
  · rw [deep, mem_lead]
    rw [wild, mem_lead] at member
    obtain ⟨impossible, -⟩ | ⟨entered, matched⟩ := member
    · exact Step.noConfusion impossible
    · refine .inr ⟨entered, ?_⟩
      simp only [Step.onward, mem_admitted] at matched ⊢
      obtain ⟨among, admitted⟩ := matched
      obtain ⟨name, kept, rfl⟩ := List.mem_map.mp among
      obtain ⟨child, shown⟩ := List.mem_filter.mp kept
      refine ⟨List.mem_map_of_mem (List.mem_filter.mpr ⟨?_, ?_⟩), admitted⟩
      · exact Tree.mem_below.mpr ⟨List.cons_ne_nil name [], Tree.mem_children.mp child⟩
      · have visible : isHidden name = false := by simp_all
        have here : r.path.append [] = r.path := by simp [Path.append]
        simp [Reached.sees, visible, here, entered]

/-- With recursion components lead on at least from where they do without. -/
theorem expandSteps_recursive {components : List String} {fewer more : List Reached} (within : fewer ⊆ more) :
    expandSteps tree (components.map (Step.ofComponent false)) fewer ⊆
      expandSteps tree (components.map (Step.ofComponent true)) more := by
  induction components generalizing fewer more with
  | nil => exact within
  | cons component rest inductionHypothesis =>
    refine inductionHypothesis fun s member => ?_
    obtain ⟨r, among, led⟩ := List.mem_flatMap.mp (List.mem_eraseDups.mp member)
    rw [List.mem_eraseDups, List.mem_flatMap]
    refine ⟨r, within among, ?_⟩
    simpa using lead_recursive led

/-- Without recursion no directory is too deep. -/
theorem stepsSink_flat (components : List String) (reached : List Reached) :
    stepsSink tree (components.map (Step.ofComponent false)) reached = false := by
  induction components generalizing reached with
  | nil => rfl
  | cons component rest inductionHypothesis =>
    have shallow : Step.ofComponent false component ≠ .deep := by
      unfold Step.ofComponent
      repeat' split
      all_goals simp_all
    simp [stepsSink, shallow, inductionHypothesis]

/-- Where recursion comes too deep on the way of steps, a directory lies too deep below another. -/
theorem exists_sinks {steps : List Step} {reached : List Reached} (sunk : stepsSink tree steps reached = true) :
    ∃ place names, tree.sinks place names = true := by
  induction steps generalizing reached with
  | nil => cases sunk
  | cons step rest inductionHypothesis =>
    rcases Bool.or_eq_true_iff.mp sunk with here | later
    · obtain ⟨r, -, deep⟩ := List.any_eq_true.mp (Bool.and_eq_true_iff.mp here).2
      obtain ⟨names, -, under⟩ := List.any_eq_true.mp (Bool.and_eq_true_iff.mp deep).2
      exact ⟨r.place, names, (Bool.and_eq_true_iff.mp under).1⟩
    · exact inductionHypothesis later

/-- With recursion a pattern leads at least where it does without, unless recursion comes too deep. -/
theorem expand_recursive {pattern : String} {reached : List Reached}
    (expanded : expand tree pattern false = .ok reached) :
    (∃ more, expand tree pattern true = .ok more ∧ reached ⊆ more) ∨
      (expand tree pattern true = .error .tooDeep ∧ ∃ place names, tree.sinks place names = true) := by
  rw [expand_eq] at expanded ⊢
  split at expanded
  next => simp at expanded
  next shallow =>
    rw [if_neg shallow]
    split at expanded
    next leads =>
      rw [if_pos leads]
      cases located : tree.locate (fixedRoot pattern) with
      | ok place =>
        cases inUse : tree.exists? place with
        | false =>
          simp only [expandFrom, located, inUse, Bool.not_false, if_true] at expanded ⊢
          exact .inl ⟨[], rfl, by rw [← Except.ok.inj expanded]; exact List.Subset.refl _⟩
        | true =>
          rw [expandFrom_of_exists located inUse] at expanded ⊢
          rw [stepsSink_flat, if_neg Bool.false_ne_true] at expanded
          obtain rfl := Except.ok.inj expanded
          split
          next sunk => exact .inr ⟨rfl, exists_sinks sunk⟩
          next => exact .inl ⟨_, rfl, expandSteps_recursive (List.Subset.refl _)⟩
      | error fault =>
        have frontDecides (steps : List Step) : expandFrom tree (fixedRoot pattern) steps = .ok reached := by
          rw [← expanded, expandFrom, expandFrom, located]
          cases fault <;> rfl
        exact .inl ⟨reached, frontDecides _, List.Subset.refl _⟩
    next leads =>
      rw [if_neg leads]
      exact .inl ⟨[], rfl, by rw [← Except.ok.inj expanded]; exact List.Subset.refl _⟩

end Glob

/-- A filter that has no rules and a limit within which all sizes lie. -/
structure Filter.Admits (filter : Filter) : Prop where
  rules : filter.rules = []
  limit : ∀ size, filter.limit.Holds size

/-- The filter that keeps nothing out admits all. -/
theorem Filter.admits_none : Filter.none.Admits := ⟨rfl, fun _ => .inl le_rfl⟩

namespace Discovery

open Glob

variable {tree : Tree} {pattern : String} {root : Path} {filter : Filter}

/-- The files at some paths can be had, unless one of the paths is too long. -/
theorem filesAt_cases (tree : Tree) (paths : List Path) :
    (∃ cs, filesAt tree paths = .ok cs) ∨ filesAt tree paths = .error .tooLong := by
  induction paths with
  | nil => exact .inl ⟨[], rfl⟩
  | cons path rest inductionHypothesis =>
    have looked : (∃ found, candidate? tree path = .ok found) ∨ candidate? tree path = .error .tooLong := by
      rw [candidate?, Tree.find?]
      cases tree.locate path with
      | ok place => exact .inl ⟨_, rfl⟩
      | error fault => cases fault <;> simp [bind, Except.bind]
    rcases looked with ⟨found, looked⟩ | refused
    · rcases inductionHypothesis with ⟨others, later⟩ | refused
      · exact .inl ⟨found.toList ++ others, by rw [filesAt, looked, later]; rfl⟩
      · exact .inr (by rw [filesAt, looked, refused]; rfl)
    · exact .inr (by rw [filesAt, refused]; rfl)

/-- At more paths there are at least the same files. -/
theorem filesAt_mono {fewer more : List Path} {direct all : List Candidate} (within : fewer ⊆ more)
    (listed : filesAt tree fewer = .ok direct) (listedAll : filesAt tree more = .ok all) : direct ⊆ all := by
  intro c member
  obtain ⟨among, leads⟩ := (mem_filesAt listed c).mp member
  exact (mem_filesAt listedAll c).mpr ⟨within among, leads⟩

/-- What keeps recursion from listing anything: a path that is too long, or directories that are too deep, of which
the tree holds some then. -/
inductive Refuses (tree : Tree) : FileFault → Prop where
  | tooLong : Refuses tree .tooLong
  | tooDeep (place names : Location) (deep : tree.sinks place names = true) : Refuses tree .tooDeep

/-- With recursion an enumeration yields at least what it does without, unless recursion is refused. -/
theorem enumerate_recursive {direct : List Candidate} (enumerated : enumerate tree pattern false = .ok (root, direct)) :
    (∃ all, enumerate tree pattern true = .ok (root, all) ∧ direct ⊆ all) ∨
      ∃ fault, Refuses tree fault ∧ enumerate tree pattern true = .error fault := by
  have further {fewer more : List Path} (within : fewer ⊆ more) (listed : filesAt tree fewer = .ok direct) :
      (∃ all, filesAt tree more = .ok all ∧ direct ⊆ all) ∨ filesAt tree more = .error .tooLong :=
    (filesAt_cases tree more).imp_left fun ⟨all, listedAll⟩ => ⟨all, listedAll, filesAt_mono within listed listedAll⟩
  rcases enumerate_cases enumerated with
    ⟨place, found, file, rfl, rfl⟩ | ⟨place, found, file, rfl, headers⟩ | ⟨missing, rfl, matching⟩
  · refine .inl ⟨_, ?_, List.Subset.refl _⟩
    simp [enumerate, found, file, bind, Except.bind]
  · have within : ((tree.below place).filter (isVisited tree place false)).map (Path.ofString pattern).append ⊆
        ((tree.below place).filter (isVisited tree place true)).map (Path.ofString pattern).append := by
      refine List.map_subset _ fun names member => ?_
      obtain ⟨among, visited⟩ := List.mem_filter.mp member
      exact List.mem_filter.mpr ⟨among, by simp_all [isVisited]⟩
    cases deep : (tree.below place).any (tree.sinks place) with
    | true =>
      obtain ⟨names, -, sunk⟩ := List.any_eq_true.mp deep
      refine .inr ⟨.tooDeep, .tooDeep place names sunk, ?_⟩
      simp [enumerate, found, file, headersIn, deep, bind, Except.bind]
    | false =>
      rcases further within (headersIn_eq_ok.mp headers).2 with ⟨all, listedAll, more⟩ | refused
      · refine .inl ⟨all, ?_, more⟩
        simp [enumerate, found, file, headersIn, deep, listedAll, bind, Except.bind]
      · refine .inr ⟨.tooLong, .tooLong, ?_⟩
        simp [enumerate, found, file, headersIn, deep, refused, bind, Except.bind]
  · obtain ⟨reached, expanded, listed⟩ := bind_eq_ok.mp matching
    rcases expand_recursive expanded with ⟨more, expandedAll, leads⟩ | ⟨deep, place, names, sunk⟩
    · rcases further (List.map_subset Reached.path leads) listed with ⟨all, listedAll, more⟩ | refused
      · refine .inl ⟨all, ?_, more⟩
        simp [enumerate, missing, filesMatching, expandedAll, listedAll, bind, Except.bind]
      · refine .inr ⟨.tooLong, .tooLong, ?_⟩
        simp [enumerate, missing, filesMatching, expandedAll, refused, bind, Except.bind]
    · refine .inr ⟨.tooDeep, .tooDeep place names sunk, ?_⟩
      simp [enumerate, missing, filesMatching, deep, bind, Except.bind]

/-- A filter that admits all selects all. -/
theorem select_of_admits (admits : filter.Admits) (cs : List Candidate) : select tree root filter cs = .ok cs := by
  induction cs with
  | nil => rfl
  | cons c rest inductionHypothesis =>
    have passed : passes tree root filter c = .ok true := by
      rw [passes_eq_true, admits.rules, SizeLimit.admits_eq_true]
      exact ⟨rfl, admits.limit _⟩
    rw [select, passed, inductionHypothesis]
    rfl

/-- Through a filter that admits all, each file that is enumerated is discovered, and no other. -/
theorem places_discover (admits : filter.Admits) {recurse : Bool} {found : List Candidate}
    (enumerated : enumerate tree pattern recurse = .ok (root, found)) :
    ∃ listed, discover tree pattern recurse filter = .ok listed ∧
      ∀ place, (∃ c ∈ listed, c.place = place) ↔ ∃ c ∈ found, c.place = place := by
  refine ⟨firstOfEach [] (sort found), discover_eq_ok.mpr ⟨root, found, enumerated, select_of_admits admits _⟩,
    fun place => ⟨?_, ?_⟩⟩
  · rintro ⟨c, member, here⟩
    exact ⟨c, (sort_perm found).mem_iff.mp ((firstOfEach_sublist [] _).subset member), here⟩
  · rintro ⟨c, member, rfl⟩
    exact exists_firstOfEach ((sort_perm found).mem_iff.mpr member) List.not_mem_nil

/-- Recursion only adds headers.

Where a pattern lists headers without recursion, and nothing is kept out, it either lists at least the same files
with recursion, or recursion is refused, because it meets a path that is too long or directories that are too deep.
If the pattern spells a directory, the files that are listed without recursion are those of the others that lie
directly in it.

Each component leads with recursion at least where it does without, so by induction over the components the
pattern does, and the directory that it may spell yields more. Taking the first spelling of each file loses no file,
and a filter that admits all keeps each. What lies directly in a directory is had from what is discovered in it with
and without recursion, which differs only in the number of names that lead to a header. -/
theorem recursion_only_adds (admits : filter.Admits) {direct : List Candidate}
    (discovered : discover tree pattern false filter = .ok direct) :
    (∃ all, discover tree pattern true filter = .ok all ∧
      (∀ c ∈ direct, ∃ d ∈ all, d.place = c.place) ∧
      ∀ place, LeadsToDirectory tree pattern place → ∀ file,
        (∃ c ∈ direct, c.place = file) ↔ (∃ d ∈ all, d.place = file) ∧ ∃ name, file = place ++ [name]) ∨
      ∃ fault, Refuses tree fault ∧ discover tree pattern true filter = .error (.file fault) := by
  obtain ⟨root, found, enumerated, -⟩ := discover_eq_ok.mp discovered
  obtain ⟨listed, discoveredAgain, places⟩ := places_discover admits enumerated
  obtain rfl := Except.ok.inj (discoveredAgain.symm.trans discovered)
  rcases enumerate_recursive enumerated with ⟨foundAll, enumeratedAll, within⟩ | ⟨fault, kind, refused⟩
  · obtain ⟨all, discoveredAll, placesAll⟩ := places_discover admits enumeratedAll
    have added : ∀ c ∈ listed, ∃ d ∈ all, d.place = c.place := by
      intro c member
      obtain ⟨d, among, same⟩ := (places c.place).mp ⟨c, member, rfl⟩
      exact (placesAll c.place).mpr ⟨d, within among, same⟩
    refine .inl ⟨all, discoveredAll, added, fun place leads file => ⟨?_, ?_⟩⟩
    · rintro ⟨c, member, rfl⟩
      refine ⟨added c member, ?_⟩
      obtain ⟨names, below, ⟨-, single⟩, -⟩ := ((discover_directory leads discovered).2 c).mp member
      obtain ⟨name, rfl⟩ := List.length_eq_one_iff.mp (single.resolve_left Bool.false_ne_true)
      exact ⟨name, below.place⟩
    · rintro ⟨⟨d, member, here⟩, name, rfl⟩
      obtain ⟨names, below, ⟨header, -⟩, kept⟩ := ((discover_directory leads discoveredAll).2 d).mp member
      have single : names = [name] := List.append_cancel_left (below.place.symm.trans here)
      refine ⟨d, ((discover_directory leads discovered).2 d).mpr ⟨names, below, ⟨header, .inr ?_⟩, kept⟩, here⟩
      rw [single, List.length_singleton]
  · exact .inr ⟨fault, kind, by rw [discover, refused]; rfl⟩

/-- Where a directory lies too deep below the one that a pattern spells, recursion is refused, whatever is kept
out. -/
theorem discover_sunken {place names : Location} (leads : LeadsToDirectory tree pattern place)
    (deep : tree.sinks place names = true) (filter : Filter) :
    discover tree pattern true filter = .error (.file .tooDeep) := by
  obtain ⟨long, directory⟩ := Bool.and_eq_true_iff.mp deep
  have filled : names ≠ [] := by
    rintro rfl
    exact Nat.not_lt_zero _ (of_decide_eq_true long)
  have below : names ∈ tree.below place := Tree.mem_below.mpr ⟨filled, Tree.exists_of_isDir directory⟩
  have sunk : (tree.below place).any (tree.sinks place) = true := List.any_eq_true.mpr ⟨names, below, deep⟩
  have noFile : tree.isFile place = false := by rw [Tree.isFile, Tree.contents?, leads.dir]; rfl
  simp [discover, enumerate, leads.found, noFile, headersIn, sunk, bind, Except.bind]

/-- A directory with a header, and another one deeper in it. -/
def drawer : Tree :=
  ⟨[], [(["d", "a.h"], "int a;\n".toUTF8), (["d", "build", "gen.h"], "int b;\n".toUTF8)], by decide⟩

/-- Recursion finds the header that lies deeper besides. -/
theorem drawer_recursion_adds :
    discover drawer "d" false Filter.none = .ok [headerAt ["d", "a.h"]] ∧
      discover drawer "d" true Filter.none = .ok [headerAt ["d", "a.h"], headerAt ["d", "build", "gen.h"]] ∧
      (∀ c ∈ [headerAt ["d", "a.h"]], ∃ d ∈ [headerAt ["d", "a.h"], headerAt ["d", "build", "gen.h"]],
        d.place = c.place) := by
  have flat : enumerate drawer "d" false = .ok (⟨.none, ["d"]⟩, [headerAt ["d", "a.h"]]) := by decide +kernel
  have deep : enumerate drawer "d" true = .ok (⟨.none, ["d"]⟩,
      [headerAt ["d", "a.h"], headerAt ["d", "build", "gen.h"]]) := by decide +kernel
  have discovered := (discover_of_ordered flat (by decide +kernel) Filter.none).trans rfl
  have discoveredAll := (discover_of_ordered deep (by decide +kernel) Filter.none).trans rfl
  rcases recursion_only_adds Filter.admits_none discovered with ⟨all, again, added, -⟩ | ⟨fault, -, refused⟩
  · obtain rfl := Except.ok.inj (again.symm.trans discoveredAll)
    exact ⟨discovered, discoveredAll, added⟩
  · rw [discoveredAll] at refused
    cases refused

section Winding

/-- Names behind many steps into the drawer and back. -/
def winding : Nat → List String → List String
  | 0, names => names
  | n + 1, names => "d" :: ".." :: winding n names

variable {n : Nat} {names : List String}

/-- A winding way goes into the drawer and back, and on from there. -/
theorem mem_winding {name : String} (member : name ∈ winding n names) : name = "d" ∨ name = ".." ∨ name ∈ names := by
  induction n with
  | zero => exact .inr (.inr member)
  | succ n inductionHypothesis =>
    rcases List.mem_cons.mp member with inward | rest
    · exact .inl inward
    · rcases List.mem_cons.mp rest with back | later
      · exact .inr (.inl back)
      · exact inductionHypothesis later

/-- What goes on from a winding way does so behind all its steps. -/
theorem winding_append (n : Nat) (front back : List String) :
    winding n front ++ back = winding n (front ++ back) := by
  induction n with
  | zero => rfl
  | succ n inductionHypothesis => rw [winding, winding, List.cons_append, List.cons_append, inductionHypothesis]

/-- Steps into the drawer and back lead nowhere. -/
theorem follow_winding (n : Nat) (names : List String) : drawer.follow [] (winding n names) = drawer.follow [] names := by
  induction n with
  | zero => rfl
  | succ n inductionHypothesis =>
    have inward : drawer.enter [] "d" = .ok ["d"] := by decide +kernel
    have back : drawer.enter ["d"] ".." = .ok [] := by decide +kernel
    simpa [winding, Tree.follow, inward, back, bind, Except.bind] using inductionHypothesis

variable (filled : names ≠ [])
include filled

/-- The spelling of a winding way takes up five bytes for each step into the drawer and back. -/
theorem size_winding (n : Nat) : (String.intercalate "/" (winding n names)).utf8ByteSize =
    5 * n + (String.intercalate "/" names).utf8ByteSize := by
  induction n with
  | zero => simp [winding]
  | succ n inductionHypothesis =>
    have around : winding (n + 1) names = ["d", ".."] ++ winding n names := rfl
    have more : winding n names ≠ [] := by cases n <;> simp [winding, filled]
    have twice : (String.intercalate "/" ["d", ".."]).utf8ByteSize = 4 := by decide +kernel
    have slash : "/".utf8ByteSize = 1 := by decide
    rw [around, String.intercalate_append_of_ne_nil (by simp) more, String.utf8ByteSize_append,
      String.utf8ByteSize_append, inductionHypothesis, twice, slash]
    omega

/-- A winding way is spelled by its names. -/
theorem toString_winding (n : Nat) :
    Path.toString ⟨.none, winding n names⟩ = String.intercalate "/" (winding n names) := by
  cases way : winding n names with
  | nil => cases n <;> simp [winding, filled] at way
  | cons first rest => simp [Path.toString, Anchor.spelling]

/-- A winding way leads where its end does, unless it is too long. -/
theorem find_winding (n : Nat) (whole : ∀ name ∈ names, '\x00' ∉ name.toList) :
    drawer.find? ⟨.none, winding n names⟩ =
      if Tree.maxPathBytes < 5 * n + (String.intercalate "/" names).utf8ByteSize then .error .tooLong
      else drawer.find? ⟨.none, names⟩ := by
  have zero (n : Nat) : ¬ ((winding n names).any fun name => name.toList.contains '\x00') = true := by
    rw [List.any_eq_true]
    rintro ⟨name, member, held⟩
    rcases mem_winding member with rfl | rfl | behind
    · exact absurd held (by decide)
    · exact absurd held (by decide)
    · exact whole name behind (by simpa using held)
  have located (n : Nat) : drawer.locate ⟨.none, winding n names⟩ =
      if Tree.maxPathBytes < 5 * n + (String.intercalate "/" names).utf8ByteSize then .error .tooLong
      else drawer.follow [] names := by
    rw [Tree.locate, if_neg (zero n), toString_winding filled, size_winding filled, if_pos rfl, follow_winding]
  have straight := located 0
  rw [winding] at straight
  rw [Tree.find?, located n]
  by_cases long : Tree.maxPathBytes < 5 * n + (String.intercalate "/" names).utf8ByteSize
  · rw [if_pos long, if_pos long]
  · have short : ¬ Tree.maxPathBytes < 5 * 0 + (String.intercalate "/" names).utf8ByteSize := by omega
    rw [if_neg long, if_neg long, Tree.find?, straight, if_neg short]

end Winding

/-- The drawer at the end of a winding way. -/
def wayToDrawer (n : Nat) : String := String.intercalate "/" (winding n ["d"])

/-- The path that a winding way spells. -/
theorem ofString_wayToDrawer (n : Nat) : Path.ofString (wayToDrawer n) = ⟨.none, winding n ["d"]⟩ := by
  have readable : (Path.mk .none (winding n ["d"])).Readable := by
    intro name member
    obtain rfl | rfl : name = "d" ∨ name = ".." := by
      rcases mem_winding member with inward | back | last
      · exact .inl inward
      · exact .inr back
      · exact .inl (List.mem_singleton.mp last)
    · exact ⟨by decide, by decide⟩
    · exact ⟨by decide, by decide⟩
  rw [wayToDrawer, ← toString_winding (List.cons_ne_nil "d" []), Path.ofString_toString _ readable]

/-- Where a winding way leaves room for the entries of the drawer, but not for the header deeper in it, recursion
is refused. -/
theorem refused_of_winding {n : Nat} (room : 5 * n + 7 ≤ Tree.maxPathBytes)
    (noRoom : Tree.maxPathBytes < 5 * n + 13) :
    discover drawer (wayToDrawer n) false Filter.none = .ok [⟨⟨.none, winding n ["d", "a.h"]⟩, ["d", "a.h"]⟩] ∧
      discover drawer (wayToDrawer n) true Filter.none = .error (.file .tooLong) := by
  have onward (names : List String) (whole : ∀ name ∈ "d" :: names, '\x00' ∉ name.toList) :
      drawer.find? ((Path.ofString (wayToDrawer n)).append names) =
        if Tree.maxPathBytes < 5 * n + (String.intercalate "/" ("d" :: names)).utf8ByteSize then .error .tooLong
        else drawer.find? ⟨.none, "d" :: names⟩ := by
    rw [ofString_wayToDrawer, Path.append, winding_append]
    exact find_winding (List.cons_ne_nil "d" names) n whole
  have found : drawer.find? (Path.ofString (wayToDrawer n)) = .ok (some ["d"]) := by
    have size : (String.intercalate "/" ["d"]).utf8ByteSize = 1 := by decide +kernel
    rw [ofString_wayToDrawer, find_winding (List.cons_ne_nil "d" []) n (by decide), size, if_neg (by omega)]
    decide +kernel
  have header : candidate? drawer ((Path.ofString (wayToDrawer n)).append ["a.h"]) =
      .ok (some ⟨⟨.none, winding n ["d", "a.h"]⟩, ["d", "a.h"]⟩) := by
    have size : (String.intercalate "/" ["d", "a.h"]).utf8ByteSize = 5 := by decide +kernel
    have straight : drawer.find? ⟨.none, ["d", "a.h"]⟩ = .ok (some ["d", "a.h"]) := by decide +kernel
    have regular : drawer.isFile ["d", "a.h"] = true := by decide +kernel
    have path : (Path.ofString (wayToDrawer n)).append ["a.h"] = ⟨.none, winding n ["d", "a.h"]⟩ := by
      rw [ofString_wayToDrawer, Path.append, winding_append]
      rfl
    rw [candidate?, onward ["a.h"] (by decide), size, if_neg (by omega), straight, path]
    simp [regular, bind, Except.bind]
  have between : candidate? drawer ((Path.ofString (wayToDrawer n)).append ["build"]) = .ok none := by
    have size : (String.intercalate "/" ["d", "build"]).utf8ByteSize = 7 := by decide +kernel
    have straight : drawer.find? ⟨.none, ["d", "build"]⟩ = .ok (some ["d", "build"]) := by decide +kernel
    have directory : drawer.isFile ["d", "build"] = false := by decide +kernel
    rw [candidate?, onward ["build"] (by decide), size, if_neg (by omega), straight]
    simp [directory, bind, Except.bind]
  have deeper : candidate? drawer ((Path.ofString (wayToDrawer n)).append ["build", "gen.h"]) = .error .tooLong := by
    have size : (String.intercalate "/" ["d", "build", "gen.h"]).utf8ByteSize = 13 := by decide +kernel
    rw [candidate?, onward ["build", "gen.h"] (by decide), size, if_pos noRoom]
    rfl
  have directory : drawer.isFile ["d"] = false := by decide +kernel
  have seen : (drawer.below ["d"]).filter (isVisited drawer ["d"] false) = [["a.h"]] := by decide +kernel
  have seenDeep : (drawer.below ["d"]).filter (isVisited drawer ["d"] true) =
      [["a.h"], ["build"], ["build", "gen.h"]] := by decide +kernel
  have shallow : (drawer.below ["d"]).any (drawer.sinks ["d"]) = false := by decide +kernel
  have direct : enumerate drawer (wayToDrawer n) false = .ok (Path.ofString (wayToDrawer n),
      [⟨⟨.none, winding n ["d", "a.h"]⟩, ["d", "a.h"]⟩]) := by
    simp [enumerate, found, directory, headersIn, seen, filesAt, header, bind, Except.bind]
  have refused : enumerate drawer (wayToDrawer n) true = .error .tooLong := by
    simp [enumerate, found, directory, headersIn, shallow, seenDeep, filesAt, header, between, deeper, bind, Except.bind]
  refine ⟨?_, ?_⟩
  · rw [discover_of_ordered direct (List.pairwise_singleton _ _)]
    exact select_of_admits Filter.admits_none _
  · rw [discover, refused]
    rfl

/-- By way of 817 steps into the drawer and back, the header in it is listed, and recursion is refused. -/
theorem drawer_recursion_refused :
    (∃ direct, discover drawer (wayToDrawer 817) false Filter.none = .ok direct ∧ ∃ c ∈ direct,
      ¬ ∃ all, discover drawer (wayToDrawer 817) true Filter.none = .ok all ∧ ∃ d ∈ all, d.place = c.place) ∧
      discover drawer (wayToDrawer 817) true Filter.none = .error (.file .tooLong) := by
  obtain ⟨listed, refused⟩ := refused_of_winding (n := 817) (by decide) (by decide)
  refine ⟨⟨_, listed, _, List.mem_singleton_self _, ?_⟩, refused⟩
  rintro ⟨all, discovered, -⟩
  rw [refused] at discovered
  cases discovered

end Discovery

end ComLayout
