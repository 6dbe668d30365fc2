import ComLayout.Proofs.Files.Below
import ComLayout.Proofs.Steps

/-!
# Where a path leads

A path is only followed through directories, so what stands above the place that it leads to is made of
directories, and as long as these stay, the path leads to the same place. The place ends in the last name
of the path, unless that leads back, and consists of names that entries can have. A path that holds the
character with the code zero, and no other, is refused as such.
-/

namespace ComLayout

namespace Tree

variable {t later : Tree}

/-- All that stands above a place are directories. -/
def Enclosed (t : Tree) (place : Location) : Prop :=
  ∀ above, above <+: place → above ≠ place → t.isDir above = true

/-- A directory is enclosed. -/
theorem enclosed_of_isDir {place : Location} (dir : t.isDir place = true) : t.Enclosed place :=
  fun _ part _ => isDir_of_isPrefix dir part

/-- Only a directory is entered: its entries and its parent are enclosed. -/
theorem enter_eq_ok {place next : Location} {name : String} (entered : t.enter place name = .ok next) :
    t.isDir place = true ∧ next = if name = ".." then place.dropLast else place ++ [name] := by
  unfold enter at entered
  cases dir : t.isDir place with
  | false =>
    rw [dir, if_neg Bool.false_ne_true] at entered
    split at entered <;> simp at entered
  | true =>
    rw [dir, if_pos rfl] at entered
    refine ⟨rfl, ?_⟩
    split at entered
    next up => rw [if_pos up, Except.ok.inj entered]
    next down =>
      rw [if_neg down]
      split at entered
      · simp at entered
      · rw [Except.ok.inj entered]

/-- A place that is entered is enclosed. -/
theorem enclosed_enter {place next : Location} {name : String} (entered : t.enter place name = .ok next) :
    t.Enclosed next := by
  obtain ⟨dir, rfl⟩ := enter_eq_ok entered
  split
  · exact enclosed_of_isDir (isDir_of_isPrefix dir (List.dropLast_prefix place))
  · intro above part other
    rcases List.prefix_concat_iff.mp part with same | inside
    · exact absurd same other
    · exact isDir_of_isPrefix dir inside

/-- Names are followed by entering the first, which does not lead out of the tree, and following the others from
there. -/
theorem follow_cons_eq_ok {place last : Location} {name : String} {rest : List String} :
    t.follow place (name :: rest) = .ok last ↔ ¬ (place.isEmpty && name = "..") = true ∧
      ∃ next, t.enter place name = .ok next ∧ t.follow next rest = .ok last := by
  rw [follow]
  split
  next out => simp [out]
  next inside => rw [bind_eq_ok, and_iff_right inside]

/-- Following names leads to an enclosed place. -/
theorem enclosed_follow {place last : Location} {names : List String} (enclosed : t.Enclosed place)
    (followed : t.follow place names = .ok last) : t.Enclosed last := by
  induction names generalizing place with
  | nil => exact Except.ok.inj followed ▸ enclosed
  | cons name rest inductionHypothesis =>
    obtain ⟨-, next, entered, onward⟩ := follow_cons_eq_ok.mp followed
    exact inductionHypothesis (enclosed_enter entered) onward

/-- Only from a directory some names lead onward. -/
theorem isDir_of_follow {place last : Location} {names : List String} (filled : names ≠ [])
    (followed : t.follow place names = .ok last) : t.isDir place = true := by
  cases names with
  | nil => exact absurd rfl filled
  | cons name rest =>
    obtain ⟨-, next, entered, -⟩ := follow_cons_eq_ok.mp followed
    exact (enter_eq_ok entered).1

/-- A path is followed from the root if it is not refused. -/
theorem locate_eq_ok {p : Path} {place : Location} (found : t.locate p = .ok place) :
    p.anchor = .none ∧ t.follow [] p.names = .ok place := by
  unfold locate at found
  split at found
  · simp at found
  · split at found
    · simp at found
    · split at found
      next free => exact ⟨free, found⟩
      next => simp at found

/-- A path leads to an enclosed place. -/
theorem enclosed_locate {p : Path} {place : Location} (found : t.locate p = .ok place) :
    t.Enclosed place :=
  enclosed_follow (enclosed_of_isDir (isDir_root t)) (locate_eq_ok found).2

section Following

variable (dirs : ∀ place, t.isDir place = true → later.isDir place = true)
include dirs

/-- As long as directories stay, they are entered as before. -/
theorem enter_mono {place next : Location} {name : String} (entered : t.enter place name = .ok next) :
    later.enter place name = .ok next := by
  have dir := (enter_eq_ok entered).1
  rw [enter, if_pos dir] at entered
  rwa [enter, if_pos (dirs place dir)]

/-- As long as directories stay, names are followed to the same place. -/
theorem follow_mono {place last : Location} {names : List String}
    (followed : t.follow place names = .ok last) : later.follow place names = .ok last := by
  induction names generalizing place with
  | nil => exact followed
  | cons name rest inductionHypothesis =>
    obtain ⟨inside, next, entered, onward⟩ := follow_cons_eq_ok.mp followed
    exact follow_cons_eq_ok.mpr ⟨inside, next, enter_mono dirs entered, inductionHypothesis onward⟩

/-- As long as directories stay, a path leads to the same place. -/
theorem locate_mono {p : Path} {place : Location} (found : t.locate p = .ok place) :
    later.locate p = .ok place := by
  have followed := follow_mono dirs (locate_eq_ok found).2
  unfold locate at found ⊢
  split at found
  · simp at found
  next whole =>
    rw [if_neg whole]
    split at found
    · simp at found
    next short =>
      rw [if_neg short]
      split at found
      next free =>
        rw [if_pos free]
        exact followed
      next => simp at found

end Following

/-- Whether a path holds the character with the code zero. -/
def holdsZero (p : Path) : Bool := p.names.any fun name => name.toList.contains '\x00'

/-- Names are never refused on the way. -/
theorem follow_ne_zero {place : Location} {names : List String} :
    t.follow place names ≠ .error .zeroCharacter := by
  induction names generalizing place with
  | nil => simp [follow]
  | cons name rest inductionHypothesis =>
    rw [follow]
    split
    · split <;> simp
    · unfold enter
      split
      · split
        · exact inductionHypothesis
        · split
          · simp [bind, Except.bind]
          · exact inductionHypothesis
      · split <;> simp [bind, Except.bind]

/-- A path is refused before it is followed exactly if it holds the character with the code zero. -/
theorem locate_zero (t : Tree) (p : Path) : t.locate p = .error .zeroCharacter ↔ holdsZero p = true := by
  unfold locate holdsZero
  cases zero : p.names.any fun name => name.toList.contains '\x00' with
  | true => simp
  | false =>
    rw [if_neg Bool.false_ne_true]
    split
    · simp
    · split
      · simpa using follow_ne_zero
      · simp

/-- Names are followed one after the other. -/
theorem follow_append {place last : Location} {front back : List String} :
    t.follow place (front ++ back) = .ok last ↔
      ∃ between, t.follow place front = .ok between ∧ t.follow between back = .ok last := by
  induction front generalizing place with
  | nil => simp [follow]
  | cons name rest inductionHypothesis =>
    simp only [List.cons_append, follow_cons_eq_ok, inductionHypothesis]
    constructor
    · rintro ⟨inside, next, entered, between, first, second⟩
      exact ⟨between, ⟨inside, next, entered, first⟩, second⟩
    · rintro ⟨between, ⟨inside, next, entered, first⟩, second⟩
      exact ⟨inside, next, entered, between, first, second⟩

/-- Where names lead to a place, what follows them is followed from there, faults included. -/
theorem follow_onward {place between : Location} {front : List String} (first : t.follow place front = .ok between)
    (back : List String) : t.follow place (front ++ back) = t.follow between back := by
  induction front generalizing place with
  | nil => rw [Except.ok.inj first, List.nil_append]
  | cons name rest inductionHypothesis =>
    obtain ⟨inside, next, entered, onward⟩ := follow_cons_eq_ok.mp first
    rw [List.cons_append, follow, if_neg inside, entered]
    exact inductionHypothesis onward

/-- Names that do not lead back are entered. -/
theorem follow_down {place last : Location} {names : List String} (down : ".." ∉ names)
    (followed : t.follow place names = .ok last) : last = place ++ names := by
  induction names generalizing place with
  | nil => simpa using (Except.ok.inj followed).symm
  | cons name rest inductionHypothesis =>
    simp only [List.mem_cons, not_or] at down
    obtain ⟨-, next, entered, onward⟩ := follow_cons_eq_ok.mp followed
    obtain ⟨-, rfl⟩ := enter_eq_ok entered
    rw [if_neg (Ne.symm down.1)] at onward
    rw [inductionHypothesis down.2 onward, List.append_assoc, List.singleton_append]

/-- A path that is short enough begins with paths that are. -/
theorem short_of_append {p : Path} {names : List String}
    (short : (p.append names).toString.utf8ByteSize ≤ maxPathBytes) : p.toString.utf8ByteSize ≤ maxPathBytes := by
  obtain ⟨anchor, front⟩ := p
  by_cases filled : front = [] ∨ names = []
  · rcases filled with rfl | rfl
    · cases anchor <;> decide
    · simpa [Path.append] using short
  · obtain ⟨someFront, someNames⟩ := not_or.mp filled
    have spelled (others : List String) (some : others ≠ []) :
        Path.toString ⟨anchor, others⟩ = anchor.spelling ++ String.intercalate "/" others := by
      cases others with
      | nil => exact absurd rfl some
      | cons _ _ => cases anchor <;> rfl
    rw [Path.append, spelled _ (by simp [someFront]), String.intercalate_append_of_ne_nil someFront someNames] at short
    rw [spelled front someFront]
    simp only [String.utf8ByteSize_append] at short ⊢
    omega

/-- A path is followed to what it begins with, and on from there. -/
theorem locate_append {p : Path} {names : List String} {last : Location}
    (found : t.locate (p.append names) = .ok last) :
    ∃ place, t.locate p = .ok place ∧ t.follow place names = .ok last := by
  obtain ⟨anchored, followed⟩ := locate_eq_ok found
  have free : p.anchor = .none := anchored
  obtain ⟨place, first, second⟩ := follow_append.mp followed
  refine ⟨place, ?_, second⟩
  unfold locate at found ⊢
  split at found
  · simp at found
  next whole =>
    have wholeFront : ¬ (p.names.any fun name => name.toList.contains '\x00') = true := by
      intro zero
      exact whole (by rw [Path.append, List.any_append, zero, Bool.true_or])
    rw [if_neg wholeFront]
    split at found
    · simp at found
    next short =>
      rw [if_neg (Nat.not_lt.mpr (short_of_append (Nat.not_lt.mp short))), if_pos free]
      exact first

/-- What a path leads to is a location in use. -/
theorem find?_eq_some {p : Path} {place : Location} :
    t.find? p = .ok (some place) ↔ t.locate p = .ok place ∧ t.exists? place = true := by
  unfold find?
  cases located : t.locate p with
  | error fault => cases fault <;> simp
  | ok last =>
    simp only [Except.ok.injEq, Option.ite_none_right_eq_some, Option.some.injEq]
    constructor
    · rintro ⟨found, rfl⟩
      exact ⟨rfl, found⟩
    · rintro ⟨rfl, found⟩
      exact ⟨found, rfl⟩

/-- A place ends in the last name of its path. -/
theorem getLast?_locate {anchor : Anchor} {names : List String} {name : String} {place : Location}
    (down : name ≠ "..") (found : t.locate ⟨anchor, names ++ [name]⟩ = .ok place) :
    place.getLast? = some name := by
  obtain ⟨above, -, second⟩ := follow_append.mp (locate_eq_ok found).2
  rw [follow_down (by simpa using Ne.symm down) second]
  exact List.getLast?_concat

/-- Beside the place of a path, other names lead to places of their own unless they are too long. -/
theorem locate_beside {anchor : Anchor} {names : List String} {name other : String} {place : Location}
    (found : t.locate ⟨anchor, names ++ [name]⟩ = .ok place) (down : other ≠ "..")
    (valid : holdsZero ⟨anchor, names ++ [other]⟩ = false)
    (short : t.locate ⟨anchor, names ++ [other]⟩ ≠ .error .tooLong) :
    ∃ beside, t.locate ⟨anchor, names ++ [other]⟩ = .ok beside := by
  obtain ⟨free, followed⟩ := locate_eq_ok found
  obtain ⟨between, first, last⟩ := follow_append.mp followed
  have dir : t.isDir between = true := isDir_of_follow (List.cons_ne_nil name []) last
  have step : t.follow between [other] =
      if maxNameBytes < other.utf8ByteSize then .error .tooLong else .ok (between ++ [other]) := by
    rw [follow, if_neg (by simp [down]), enter, if_pos dir, if_neg down]
    split <;> rfl
  have led : t.locate ⟨anchor, names ++ [other]⟩ =
      if maxPathBytes < (Path.mk anchor (names ++ [other])).toString.utf8ByteSize then .error .tooLong
      else t.follow between [other] := by
    have whole : ¬ ((names ++ [other]).any fun name => name.toList.contains '\x00') = true :=
      Bool.eq_false_iff.mp valid
    have onward : t.follow [] (names ++ [other]) = t.follow between [other] := follow_onward first [other]
    have anchored : anchor = .none := free
    simp only [locate, if_neg whole, if_pos anchored, onward]
  rw [led, step] at short ⊢
  by_cases wide : maxPathBytes < (Path.mk anchor (names ++ [other])).toString.utf8ByteSize
  · exact absurd (if_pos wide) short
  · rw [if_neg wide] at short ⊢
    by_cases long : maxNameBytes < other.utf8ByteSize
    · exact absurd (if_pos long) short
    · exact ⟨between ++ [other], if_neg long⟩

/-- A component that does not lead back can be the name of an entry. -/
theorem isEntryName_of_component {name : String} (component : Component name) (down : name ≠ "..") :
    isEntryName name = true := by
  obtain ⟨kept, whole⟩ := component
  have filled : name ≠ "" := by
    rintro rfl
    simp [Path.isComponent] at kept
  have other : name ≠ "." := by
    rintro rfl
    simp [Path.isComponent] at kept
  simp [isEntryName, filled, other, down, whole]

/-- A place is named as entries are, if the names on the way to it are components. -/
theorem all_isEntryName_follow {place last : Location} {names : List String}
    (components : ∀ name ∈ names, Component name) (valid : place.all isEntryName = true)
    (followed : t.follow place names = .ok last) : last.all isEntryName = true := by
  induction names generalizing place with
  | nil => exact Except.ok.inj followed ▸ valid
  | cons name rest inductionHypothesis =>
    obtain ⟨-, next, entered, onward⟩ := follow_cons_eq_ok.mp followed
    refine inductionHypothesis (fun other member => components other (List.mem_cons_of_mem name member))
      ?_ onward
    obtain ⟨-, rfl⟩ := enter_eq_ok entered
    split
    · exact List.all_eq_true.mpr fun other member =>
        List.all_eq_true.mp valid other (List.dropLast_subset place member)
    next down =>
      rw [List.all_append, valid, List.all_cons, List.all_nil,
        isEntryName_of_component (components name List.mem_cons_self) down]
      rfl

/-- A readable path leads to a place that is named as entries are. -/
theorem all_isEntryName_locate {p : Path} (readable : p.Readable) {place : Location}
    (found : t.locate p = .ok place) : place.all isEntryName = true :=
  all_isEntryName_follow readable rfl (locate_eq_ok found).2

end Tree

end ComLayout
