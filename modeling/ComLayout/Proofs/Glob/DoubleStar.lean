import ComLayout.Proofs.Discovery.Filtering
import ComLayout.Proofs.Glob.Parts

/-!
# What a double star stands for

In an exclusion rule the part `**` stands for exactly one name. A rule that holds `**/` is tried again
without it, so there it also stands for no name. It never stands for more. What lies deeper is excluded
only by accident: a rule without anchor looks at the last parts of a path, and these may be those of the
directory once more.
-/

namespace ComLayout.Glob

/-- Whether a rule takes the place behind a directory and some names for the directory itself. Without
anchor it does so if the path ends in the directory once more. -/
def TakenFor (directory : Path) (names : List String) : Prop :=
  if directory.anchor = .none then directory.names <:+ directory.names ++ names else names = []

instance (directory : Path) (names : List String) : Decidable (TakenFor directory names) :=
  inferInstanceAs (Decidable (if directory.anchor = .none then _ else _))

variable {directory : Path} {back : List String}

/-- A directory is taken for itself. -/
theorem takenFor_nil (directory : Path) : TakenFor directory [] := by
  unfold TakenFor
  split <;> simp

/-- The same ending on both sides does not matter for how a list ends. -/
theorem append_suffix_append (front longer back : List String) :
    front ++ back <:+ longer ++ back ↔ front <:+ longer := by
  rw [← List.reverse_prefix, List.reverse_append, List.reverse_append, List.prefix_append_right_inj,
    List.reverse_prefix]

/-- What one list and a name end, another list and its last name do exactly if the names are the same and the
lists end so. -/
theorem concat_suffix_concat (front longer : List String) (name last : String) :
    front ++ [name] <:+ longer ++ [last] ↔ name = last ∧ front <:+ longer := by
  rw [← List.reverse_prefix, List.reverse_append, List.reverse_append, List.reverse_singleton,
    List.reverse_singleton, List.singleton_append, List.singleton_append, List.cons_prefix_cons,
    List.reverse_prefix]

/-- A rule of parts without wildcards, which begin with those of a directory, matches what lies behind the
directory exactly if the names between are passed over. -/
theorem matchesParts_plain (plainFront : ∀ part ∈ directory.names, hasWildcard part = false)
    (plainBack : ∀ part ∈ back, hasWildcard part = false) (between : List String) :
    matchesParts (directory.append back) (directory.append (between ++ back)) = true ↔
      TakenFor directory between := by
  have plain : ∀ part ∈ directory.names ++ back, hasWildcard part = false := by
    intro part member
    rcases List.mem_append.mp member with front | behind
    · exact plainFront part front
    · exact plainBack part behind
  unfold matchesParts TakenFor
  by_cases relative : directory.anchor = .none
  · simp only [Path.append, relative, if_true, Path.parts]
    rw [matchesTail_plain plain, ← List.append_assoc, append_suffix_append]
  · simp only [Path.append, relative, if_false, decide_true, Bool.true_and, Bool.and_eq_true, decide_eq_true_eq,
      List.length_append, matchesTail_plain plain]
    constructor
    · rintro ⟨lengths, -⟩
      exact List.length_eq_zero_iff.mp (by omega)
    · rintro rfl
      simp

/-- A double star behind a directory stands for the last of the names between. -/
theorem matchesParts_doubleStar (plainFront : ∀ part ∈ directory.names, hasWildcard part = false)
    (plainBack : ∀ part ∈ back, hasWildcard part = false) (between : List String) :
    matchesParts (directory.append ("**" :: back)) (directory.append (between ++ back)) = true ↔
      between ≠ [] ∧ TakenFor directory between.dropLast := by
  unfold matchesParts TakenFor
  by_cases relative : directory.anchor = .none
  · simp only [Path.append, relative, if_true, Path.parts]
    have shifted (name : String) : directory.names ++ name :: back <:+ directory.names ++ (between ++ back) ↔
        directory.names ++ [name] <:+ directory.names ++ between := by
      have split : directory.names ++ name :: back = directory.names ++ [name] ++ back := by simp
      rw [split, ← List.append_assoc, append_suffix_append]
    simp only [matchesTail_doubleStar plainFront plainBack, shifted]
    rcases List.eq_nil_or_concat' between with rfl | ⟨others, last, rfl⟩
    · constructor
      · rintro ⟨name, within⟩
        have lengths := within.length_le
        simp only [List.length_append, List.length_singleton, List.length_nil] at lengths
        omega
      · rintro ⟨filled, -⟩
        exact absurd rfl filled
    · simp [← List.append_assoc, concat_suffix_concat]
  · simp only [Path.append, relative, if_false, decide_true, Bool.true_and, Bool.and_eq_true, decide_eq_true_eq,
      List.length_append, List.length_cons, matchesTail_doubleStar plainFront plainBack]
    rcases List.eq_nil_or_concat' between with rfl | ⟨others, last, rfl⟩
    · simp
    · constructor
      · rintro ⟨lengths, -⟩
        rw [List.length_append, List.length_singleton] at lengths
        refine ⟨by simp, ?_⟩
        rw [List.dropLast_concat]
        exact List.length_eq_zero_iff.mp (by omega)
      · rintro ⟨-, single⟩
        rw [List.dropLast_concat] at single
        subst single
        exact ⟨by simp [Nat.add_comm], last, by simp⟩

/-- In front of a text without stars no double star begins. -/
theorem holdsDoubleStar_append {front : List Char} (plain : '*' ∉ front) (rest : List Char) :
    holdsDoubleStar (front ++ rest) = holdsDoubleStar rest := by
  induction front with
  | nil => rfl
  | cons c more inductionHypothesis =>
    obtain ⟨other, later⟩ := not_or.mp (List.mem_cons.not.mp plain)
    rw [List.cons_append, holdsDoubleStar, inductionHypothesis later]
    · rintro after rfl
      exact absurd rfl other

/-- A text without stars stays when double stars are dropped. -/
theorem dropDoubleStars_append {front : List Char} (plain : '*' ∉ front) (rest : List Char) :
    dropDoubleStars (front ++ rest) = front ++ dropDoubleStars rest := by
  induction front with
  | nil => rfl
  | cons c more inductionHypothesis =>
    obtain ⟨other, later⟩ := not_or.mp (List.mem_cons.not.mp plain)
    rw [List.cons_append, dropDoubleStars, inductionHypothesis later]
    · rfl
    · rintro after rfl
      exact absurd rfl other

/-- The names in a text without wildcards have none. -/
theorem hasWildcard_names {text : String} (plain : hasWildcard text = false) :
    ∀ name ∈ (Path.ofString text).names, hasWildcard name = false := by
  intro name named
  rw [hasWildcard_eq_false] at plain ⊢
  exact fun c member => plain c (Path.mem_of_mem_names named member)

/-- A text without wildcards has no stars. -/
theorem star_not_mem {text : String} (plain : hasWildcard text = false) : '*' ∉ text.toList :=
  fun member => (hasWildcard_eq_false.mp plain '*' member).1 rfl

/-- A pattern with names is not refused. -/
theorem matchesPath_of_names {pattern : String} (named : (Path.ofString pattern).names ≠ []) (path : Path) :
    matchesPath pattern path = .ok (matchesParts (Path.ofString pattern) path) := by
  have parts : (Path.ofString pattern).parts.isEmpty = false := by
    unfold Path.parts
    split <;> simp [named]
  simp [matchesPath, parts]

section Spelled

variable {front back : String}

/-- A directory with a double star behind it. -/
theorem ofString_doubleStar (named : (Path.ofString front).names ≠ []) :
    Path.ofString (front ++ "/**") = (Path.ofString front).append ["**"] := by
  have cut : front ++ "/**" = front ++ "/" ++ "**" := String.toList_inj.mp (by simp)
  rw [cut, Path.ofString_slash named]
  rfl

/-- A directory with a double star and a path behind it. -/
theorem ofString_doubleStar_slash (named : (Path.ofString front).names ≠ []) (back : String) :
    Path.ofString (front ++ "/**/" ++ back) =
      (Path.ofString front).append ("**" :: (Path.ofString back).names) := by
  have cut : front ++ "/**/" ++ back = front ++ "/" ++ ("**" ++ "/" ++ back) :=
    String.toList_inj.mp (by simp)
  have star : (Path.ofString "**").names ≠ [] := by decide
  rw [cut, Path.ofString_slash named, Path.ofString_slash star]
  rfl

/-- Without its double star the rule for a path below a directory leads from the one to the other. -/
theorem dropDoubleStars_between (plainFront : hasWildcard front = false) (plainBack : hasWildcard back = false) :
    String.ofList (dropDoubleStars (front ++ "/**/" ++ back).toList) = front ++ "/" ++ back := by
  have plain := dropDoubleStars_append (star_not_mem plainBack) []
  rw [List.append_nil, dropDoubleStars, List.append_nil] at plain
  have dropped : dropDoubleStars ('/' :: '*' :: '*' :: '/' :: back.toList) = '/' :: back.toList := by
    rw [dropDoubleStars, dropDoubleStars, plain]
    simp
  have spelled : (front ++ "/**/" ++ back).toList = front.toList ++ '/' :: '*' :: '*' :: '/' :: back.toList := by
    simp
  rw [spelled, dropDoubleStars_append (star_not_mem plainFront), dropped]
  exact String.toList_inj.mp (by simp)

/-- A double star between a directory and a path stands for one name or none. -/
theorem excludes_between (plainFront : hasWildcard front = false) (plainBack : hasWildcard back = false)
    (named : (Path.ofString front).names ≠ []) (between : List String) :
    (Rule.glob (front ++ "/**/" ++ back)).excludes
        ((Path.ofString front).append (between ++ (Path.ofString back).names)) =
      .ok (decide (TakenFor (Path.ofString front) between ∨ TakenFor (Path.ofString front) between.dropLast)) := by
  have once := ofString_doubleStar_slash named back
  have never := Path.ofString_slash named back
  have first := matchesParts_doubleStar (hasWildcard_names plainFront) (hasWildcard_names plainBack) between
  have second := matchesParts_plain (hasWildcard_names plainFront) (hasWildcard_names plainBack) between
  rw [← once] at first
  rw [← never] at second
  have starred : holdsDoubleStar (front ++ "/**/" ++ back).toList = true := by
    simp [holdsDoubleStar_append (star_not_mem plainFront), holdsDoubleStar]
  rw [Rule.excludes, matchesPath_of_names (by simp [once, Path.append]), starred,
    dropDoubleStars_between plainFront plainBack, matchesPath_of_names (by simp [never, Path.append, named])]
  simp only [bind, Except.bind, if_true, ← apply_ite Except.ok]
  rw [Except.ok.injEq, Bool.eq_iff_iff, decide_eq_true_eq]
  split
  next star => simp [(first.mp star).2]
  next noStar =>
    rw [second]
    constructor
    · exact .inl
    · rintro (whole | last)
      · exact whole
      · by_cases none : between = []
        · rw [none]
          exact takenFor_nil _
        · exact absurd (first.mpr ⟨none, last⟩) noStar

/-- A double star behind a directory stands for one name. -/
theorem excludes_behind (plainFront : hasWildcard front = false) (named : (Path.ofString front).names ≠ [])
    {names : List String} (below : names ≠ []) :
    (Rule.glob (front ++ "/**")).excludes ((Path.ofString front).append names) =
      .ok (decide (TakenFor (Path.ofString front) names.dropLast)) := by
  have once := ofString_doubleStar named
  have matched : matchesParts ((Path.ofString front).append ["**"]) ((Path.ofString front).append (names ++ [])) =
      true ↔ names ≠ [] ∧ TakenFor (Path.ofString front) names.dropLast :=
    matchesParts_doubleStar (hasWildcard_names plainFront) (by simp) names
  rw [← once, List.append_nil] at matched
  have unstarred : holdsDoubleStar (front ++ "/**").toList = false := by
    simp [holdsDoubleStar_append (star_not_mem plainFront), holdsDoubleStar]
  rw [Rule.excludes, matchesPath_of_names (by simp [once, Path.append]), unstarred]
  simp only [bind, Except.bind, Bool.false_eq_true, if_false]
  split
  next star => simp [(matched.mp star).2]
  next noStar =>
    have untaken : ¬ TakenFor (Path.ofString front) names.dropLast :=
      fun taken => noStar (matched.mpr ⟨below, taken⟩)
    simp [untaken]

end Spelled

/-- A single rule decides alone. -/
theorem anyExcludes_singleton (path : Path) (rule : Rule) : anyExcludes path [rule] = rule.excludes path := by
  rw [anyExcludes]
  cases rule.excludes path with
  | error fault => rfl
  | ok excluded => cases excluded <;> rfl

variable {front back : String}

/-- In an exclusion rule a double star stands for one name, and before a slash also for none.

What lies deeper below the directory is excluded exactly if its path, without the last name or as it is, ends in the
directory once more. So of the headers below a directory that a rule excludes, those directly in it are never listed.

A rule is matched from its last component on, each component with one name of the path, and a relative rule leaves off
when it is used up. So a double star takes up one name like a single one; only where a slash follows, a second attempt
is made without it. What stands before the rule's first component in the path does not matter, which is how a path
that ends in the directory once more comes to be excluded. -/
theorem double_star_stands_for_one_name (plainFront : hasWildcard front = false)
    (plainBack : hasWildcard back = false) (named : (Path.ofString front).names ≠ []) :
    (∀ between, anyExcludes ((Path.ofString front).append (between ++ (Path.ofString back).names))
        [.glob (front ++ "/**/" ++ back)] =
      .ok (decide (TakenFor (Path.ofString front) between ∨
        TakenFor (Path.ofString front) between.dropLast))) ∧
      (∀ names, names ≠ [] → anyExcludes ((Path.ofString front).append names) [.glob (front ++ "/**")] =
        .ok (decide (TakenFor (Path.ofString front) names.dropLast))) ∧
      ∀ (tree : Tree) (pattern : String) (recurse : Bool) (filter : Filter) (listed : List Candidate),
        (Path.ofString front).anchor = .none → .glob (front ++ "/**") ∈ filter.rules →
        Discovery.discover tree pattern recurse filter = .ok listed →
        ∃ root found, Discovery.enumerate tree pattern recurse = .ok (root, found) ∧
          ∀ c ∈ listed, ∀ names, names ≠ [] →
            root.under? c.path = some ((Path.ofString front).names ++ names) →
            ¬ TakenFor (Path.ofString front) names.dropLast := by
  refine ⟨fun between => ?_, fun names below => ?_, ?_⟩
  · rw [anyExcludes_singleton, excludes_between plainFront plainBack named]
  · rw [anyExcludes_singleton, excludes_behind plainFront named below]
  · intro tree pattern recurse filter listed relative rule discovered
    obtain ⟨root, found, enumerated, members⟩ := Discovery.mem_discover discovered
    refine ⟨root, found, enumerated, fun c member names below under taken => ?_⟩
    have kept := (Discovery.passes_eq_true.mp (members c member).2).1
    have path : Discovery.relativePath root c.path = (Path.ofString front).append names := by
      simp [Discovery.relativePath, under, Path.append, relative]
    have spared := anyExcludes_eq_false_iff.mp kept _ rule
    rw [path, excludes_behind plainFront named below] at spared
    simp [taken] at spared

/-- What is built is excluded below any one name. -/
theorem build_double_star :
    (∀ between, anyExcludes ((Path.ofString "build").append (between ++ (Path.ofString "gen.h").names))
        [.glob ("build" ++ "/**/" ++ "gen.h")] =
      .ok (decide (TakenFor (Path.ofString "build") between ∨
        TakenFor (Path.ofString "build") between.dropLast))) ∧
      ∀ names, names ≠ [] → anyExcludes ((Path.ofString "build").append names) [.glob ("build" ++ "/**")] =
        .ok (decide (TakenFor (Path.ofString "build") names.dropLast)) := by
  have plainFront : hasWildcard "build" = false := by decide
  have plainBack : hasWildcard "gen.h" = false := by decide
  have named : (Path.ofString "build").names ≠ [] := by decide
  obtain ⟨within, below, -⟩ := double_star_stands_for_one_name plainFront plainBack named
  exact ⟨within, below⟩

/-- A header that is built, below a directory of what is built. -/
def generated : Candidate := ⟨⟨.none, ["build", "cmake", "gen.h"]⟩, ["build", "cmake", "gen.h"]⟩

/-- Two directories are more than a double star stands for, so what lies in them is listed. -/
theorem generated_listed :
    anyExcludes (Path.ofString "a/b/c/d.h") [.glob "a/**/d.h"] = .ok false ∧
      anyExcludes (Path.ofString "build/cmake/gen.h") [.glob "build/**"] = .ok false ∧
      Discovery.discover ⟨[], [(generated.place, "int gen;\n".toUTF8)], by decide⟩ "." true Filter.standard =
        .ok [generated] := by
  refine ⟨?_, ?_, ?_⟩ <;> decide +kernel

end ComLayout.Glob
