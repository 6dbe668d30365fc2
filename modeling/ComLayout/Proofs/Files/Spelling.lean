import ComLayout.Files.Tree

/-!
# Reading back the spelling of a path

A spelling is read without its empty components and its single dots. The path that is read can be
spelled and read again, and comes out as it was. The same holds for the paths to the entries of a tree:
their names are neither empty nor a single dot, and hold no slash.
-/

namespace ComLayout

namespace Text

/-- The characters of a piece are those of the text. -/
theorem mem_of_mem_split {separator c : Char} {cs piece : List Char} (cut : piece ∈ split separator cs)
    (member : c ∈ piece) : c ∈ cs := by
  induction cs generalizing piece with
  | nil =>
    rw [split, List.mem_singleton] at cut
    exact absurd (cut ▸ member) List.not_mem_nil
  | cons first rest inductionHypothesis =>
    by_cases here : first = separator
    · simp only [split, here, beq_self_eq_true, if_true] at cut
      rcases List.mem_cons.mp cut with rfl | later
      · exact absurd member List.not_mem_nil
      · exact List.mem_cons_of_mem first (inductionHypothesis later member)
    · simp only [split, beq_false_of_ne here, Bool.false_eq_true, if_false] at cut
      cases found : split separator rest with
      | nil =>
        have pieces := split_length separator rest
        simp [found] at pieces
      | cons next others =>
        rw [found, extendFirst] at cut
        rcases List.mem_cons.mp cut with rfl | later
        · rcases List.mem_cons.mp member with rfl | inside
          · exact List.mem_cons_self
          · exact List.mem_cons_of_mem first (inductionHypothesis (found ▸ List.mem_cons_self) inside)
        · exact List.mem_cons_of_mem first
            (inductionHypothesis (found ▸ List.mem_cons_of_mem next later) member)

/-- What is put behind a text without separators becomes the end of its last piece. -/
theorem exists_split_append (separator : Char) (front : List Char) :
    ∃ others last, ∀ ending, separator ∉ ending →
      split separator (front ++ ending) = others ++ [last ++ ending] := by
  induction front with
  | nil => exact ⟨[], [], fun ending whole => split_of_not_mem separator ending whole⟩
  | cons c rest inductionHypothesis =>
    obtain ⟨others, last, pieces⟩ := inductionHypothesis
    by_cases cut : c = separator
    · refine ⟨[] :: others, last, fun ending whole => ?_⟩
      simp [split, cut, pieces ending whole]
    · cases others with
      | nil =>
        refine ⟨[], c :: last, fun ending whole => ?_⟩
        simp [split, cut, pieces ending whole, extendFirst]
      | cons first more =>
        refine ⟨(c :: first) :: more, last, fun ending whole => ?_⟩
        simp [split, cut, pieces ending whole, extendFirst]

end Text

/-- A name that stands as it is between the slashes of a spelling. -/
structure Component (name : String) : Prop where
  kept : Path.isComponent name.toList = true
  whole : '/' ∉ name.toList

/-- A component is not empty. -/
theorem Component.filled {name : String} (component : Component name) : name ≠ "" := by
  rintro rfl
  exact Bool.noConfusion component.kept

namespace Path

/-- A path all of whose names are components. -/
def Readable (p : Path) : Prop := ∀ name ∈ p.names, Component name

/-- A path with names ends in its last one. -/
theorem names_eq_append {p : Path} (named : p.names ≠ []) : p.names = p.names.dropLast ++ [p.name] := by
  have last : p.name = p.names.getLast named := by
    simp [Path.name, List.getLast?_eq_some_getLast named]
  rw [last, List.dropLast_concat_getLast]

/-- A path with names is not its own parent. -/
theorem ne_parent {p : Path} (named : p.names ≠ []) : p ≠ p.parent := by
  intro same
  have shorter : p.names = p.names.dropLast := congrArg Path.names same
  have lengths := congrArg List.length shorter
  rw [List.length_dropLast] at lengths
  have filled := List.length_pos_iff.mpr named
  omega

/-- A path that was read is readable. -/
theorem readable_ofString (s : String) : (ofString s).Readable := by
  intro name member
  obtain ⟨piece, among, rfl⟩ := List.mem_map.mp member
  obtain ⟨cut, kept⟩ := List.mem_filter.mp among
  have whole : '/' ∉ piece := Text.separator_not_mem_split '/' s.toList piece cut
  exact ⟨by simpa using kept, by simpa using whole⟩

/-- A readable path to which components are appended is readable. -/
theorem Readable.append {p : Path} (readable : p.Readable) {names : List String}
    (components : ∀ name ∈ names, Component name) : (p.append names).Readable := by
  intro name member
  rcases List.mem_append.mp member with before | after
  · exact readable name before
  · exact components name after

/-- From a path the way to what is appended to it is what is appended. -/
@[simp] theorem under?_append (root : Path) (names : List String) :
    root.under? (root.append names) = some names := by
  simp [under?, append]

/-- Only from what a path goes on from is there a way to it. -/
theorem under?_eq_some {root p : Path} {names : List String} :
    root.under? p = some names ↔ p = root.append names := by
  constructor
  · intro way
    unfold under? at way
    split at way
    next leads =>
      obtain ⟨rest, split⟩ := List.isPrefixOf_iff_prefix.mp leads.2
      rw [Option.some.injEq, ← split, List.drop_left] at way
      cases p
      simp_all [append]
    next => simp at way
  · rintro rfl
    exact under?_append root names

/-- What is appended in two parts is appended as a whole. -/
theorem append_append (p : Path) (front back : List String) :
    (p.append front).append back = p.append (front ++ back) := by
  simp [append]

/-- Slashes in front of a text are read as the anchor that they spell. -/
theorem anchorOf_spelling (anchor : Anchor) (rest : List Char) (apart : rest.head? ≠ some '/') :
    anchorOf (anchor.spelling.toList ++ rest) = anchor := by
  have none : rest.takeWhile (· == '/') = [] := by
    cases rest with
    | nil => rfl
    | cons c more => exact List.takeWhile_cons_of_neg (by simpa using apart)
  cases anchor <;> simp [anchorOf, Anchor.spelling, none]

/-- Texts that are joined by slashes do not begin with one, if they hold none and the first is not empty. -/
theorem head?_joined {name : String} {more : List String} (filled : name ≠ "") (whole : '/' ∉ name.toList) :
    (['/'].intercalate ((name :: more).map String.toList)).head? ≠ some '/' := by
  cases spelled : name.toList with
  | nil => exact absurd (String.toList_inj.mp (by simpa using spelled)) filled
  | cons c rest =>
    have other : c ≠ '/' := by
      rintro rfl
      simp [spelled] at whole
    cases more <;> simpa [spelled, List.intercalate_cons_cons] using other

/-- Slashes in front of a text spell no component. -/
theorem components_spelling (anchor : Anchor) (rest : List Char) :
    (pieces (anchor.spelling.toList ++ rest)).filter isComponent =
      (pieces rest).filter isComponent := by
  cases anchor <;> simp [pieces, Anchor.spelling, Text.split, isComponent]

/-- Texts that are joined by slashes behind an anchor are read as a path with this anchor. Single dots are
left out; none of the texts may be empty or hold a slash. -/
theorem ofString_joined (anchor : Anchor) {names : List String} (filled : ∀ name ∈ names, name ≠ "")
    (whole : ∀ name ∈ names, '/' ∉ name.toList) :
    ofString (anchor.spelling ++ String.intercalate "/" names) =
      ⟨anchor, names.filter fun name => isComponent name.toList⟩ := by
  cases names with
  | nil => cases anchor <;> rfl
  | cons name more =>
    have spelled : (anchor.spelling ++ String.intercalate "/" (name :: more)).toList =
        anchor.spelling.toList ++ ['/'].intercalate ((name :: more).map String.toList) := by
      simp [String.toList_append, String.toList_intercalate]
    have cut : pieces (['/'].intercalate ((name :: more).map String.toList)) =
        (name :: more).map String.toList :=
      Text.split_intercalate '/' _ _ (by simpa using whole)
    have apart : (['/'].intercalate ((name :: more).map String.toList)).head? ≠ some '/' :=
      head?_joined (filled name List.mem_cons_self) (whole name List.mem_cons_self)
    rw [ofString, spelled, anchorOf_spelling anchor _ apart, components_spelling, cut, List.filter_map,
      List.map_map]
    simp [Function.comp_def]

/-- The spelling of a readable path is read as that path. -/
theorem ofString_toString (p : Path) (readable : p.Readable) : ofString p.toString = p := by
  obtain ⟨anchor, names⟩ := p
  cases names with
  | nil => cases anchor <;> rfl
  | cons name more =>
    have spelled : Path.toString ⟨anchor, name :: more⟩ =
        anchor.spelling ++ String.intercalate "/" (name :: more) := by
      cases anchor <;> rfl
    have kept : (name :: more).filter (fun name => isComponent name.toList) = name :: more :=
      List.filter_eq_self.mpr fun other member => (readable other member).kept
    rw [spelled, ofString_joined anchor (fun other member => (readable other member).filled)
      (fun other member => (readable other member).whole), kept]

/-- The characters of a name are those of the text that spells the path. -/
theorem mem_of_mem_names {text name : String} (named : name ∈ (ofString text).names) {c : Char}
    (member : c ∈ name.toList) : c ∈ text.toList := by
  obtain ⟨piece, among, rfl⟩ := List.mem_map.mp named
  exact Text.mem_of_mem_split (List.mem_filter.mp among).1 (by simpa using member)

/-- What is put behind a text without slashes becomes the end of the last name. It has to be longer than
a single dot. -/
theorem exists_ofString_append (front : String) :
    ∃ names last, ∀ ending : String, '/' ∉ ending.toList → 2 ≤ ending.toList.length →
      ofString (front ++ ending) = ⟨anchorOf front.toList, names ++ [last ++ ending]⟩ := by
  obtain ⟨others, last, cut⟩ := Text.exists_split_append '/' front.toList
  refine ⟨(others.filter isComponent).map String.ofList, String.ofList last, fun ending whole long => ?_⟩
  have none : ending.toList.takeWhile (· == '/') = [] := by
    cases spelled : ending.toList with
    | nil => rfl
    | cons c more =>
      refine List.takeWhile_cons_of_neg ?_
      rintro slash
      exact whole (spelled ▸ beq_iff_eq.mp slash ▸ List.mem_cons_self)
  have slashes : (front.toList ++ ending.toList).takeWhile (· == '/') =
      front.toList.takeWhile (· == '/') := by
    rw [List.takeWhile_append, none, List.append_nil]
    split
    next all => exact ((List.takeWhile_prefix _).eq_of_length all).symm
    next => rfl
  have anchored : anchorOf (front.toList ++ ending.toList) = anchorOf front.toList := by
    rw [anchorOf, anchorOf, slashes]
  have kept : isComponent (last ++ ending.toList) = true := by
    have filled : last ++ ending.toList ≠ [] := by
      intro empty
      simp [(List.append_eq_nil_iff.mp empty).2] at long
    have other : last ++ ending.toList ≠ ['.'] := by
      intro same
      have lengths := congrArg List.length same
      rw [List.length_append, List.length_singleton] at lengths
      omega
    simp [isComponent, filled, other]
  rw [ofString, String.toList_append, anchored, pieces, cut ending.toList whole, List.filter_append,
    List.filter_cons_of_pos kept, List.filter_nil, List.map_append, List.map_singleton]
  simp

/-- A text behind a slash is read on its own, if what stands before it is not made of slashes alone. -/
theorem ofString_behind {front : String} (spelled : ∃ c ∈ front.toList, c ≠ '/') (rest : String) :
    ofString (front ++ "/" ++ rest) = (ofString front).append (ofString rest).names := by
  have other : (front.toList.takeWhile (· == '/')).length ≠ front.toList.length := by
    intro same
    obtain ⟨c, inside, apart⟩ := spelled
    have slashes := List.all_takeWhile (p := (· == '/')) (l := front.toList)
    rw [(List.takeWhile_prefix _).eq_of_length same, List.all_eq_true] at slashes
    exact apart (by simpa using slashes c inside)
  have anchored (behind : List Char) : anchorOf (front.toList ++ behind) = anchorOf front.toList := by
    rw [anchorOf, anchorOf, List.takeWhile_append, if_neg other]
  have cut : pieces (front.toList ++ '/' :: rest.toList) = pieces front.toList ++ pieces rest.toList :=
    Text.split_both '/' front.toList rest.toList
  simp [ofString, append, anchored, cut]

/-- A text behind a slash is read on its own, if there is a name before it. -/
theorem ofString_slash {front : String} (named : (ofString front).names ≠ []) (rest : String) :
    ofString (front ++ "/" ++ rest) = (ofString front).append (ofString rest).names := by
  obtain ⟨name, member⟩ := List.exists_mem_of_ne_nil _ named
  have component : Component name := readable_ofString front name member
  obtain ⟨c, inside⟩ : ∃ c, c ∈ name.toList := by
    apply List.exists_mem_of_ne_nil
    intro empty
    exact component.filled (String.toList_inj.mp (by simpa using empty))
  refine ofString_behind ⟨c, mem_of_mem_names member inside, ?_⟩ rest
  rintro rfl
  exact component.whole inside

end Path

/-- The name of an entry is a component. -/
theorem component_of_isEntryName {name : String} (entry : isEntryName name = true) :
    Component name := by
  simp only [isEntryName, Bool.and_eq_true, bne_iff_ne, ne_eq, Bool.not_eq_true',
    List.contains_eq_mem, decide_eq_false_iff_not] at entry
  obtain ⟨⟨⟨filled, other⟩, -⟩, whole⟩ := entry
  refine ⟨?_, whole⟩
  have named : name.toList ≠ [] := by simpa using filled
  have apart : name.toList ≠ ['.'] := fun same => other (String.toList_inj.mp same)
  simp [Path.isComponent, named, apart]

end ComLayout
