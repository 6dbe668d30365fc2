import ComLayout.Files.Change
import ComLayout.Proofs.Entries
import ComLayout.Proofs.Files.Following

/-!
# What a change leaves as it is

A directory is made, and a file written, only where all that stands above is made of directories. So
neither hides anything: directories stay directories, and no other file is changed.
-/

namespace ComLayout

namespace Tree

variable {t later : Tree}

/-- What a tree still has after a change: its directories, and its files except in the places touched. -/
structure Keeps (touched : Location → Prop) (t later : Tree) : Prop where
  dirs : ∀ place, t.isDir place = true → later.isDir place = true
  files : ∀ place, ¬ touched place → later.contents? place = t.contents? place

namespace Keeps

variable {touched : Location → Prop}

/-- Without a change all is kept. -/
theorem refl (t : Tree) : t.Keeps touched t := ⟨fun _ dir => dir, fun _ _ => rfl⟩

/-- What two changes keep is kept by both in turn. -/
theorem trans {third : Tree} (first : t.Keeps touched later) (second : later.Keeps touched third) :
    t.Keeps touched third :=
  ⟨fun place dir => second.dirs place (first.dirs place dir),
    fun place other => (second.files place other).trans (first.files place other)⟩

/-- Less may be touched than is allowed. -/
theorem mono {allowed : Location → Prop} (kept : t.Keeps touched later)
    (fewer : ∀ place, touched place → allowed place) : t.Keeps allowed later :=
  ⟨kept.dirs, fun place other => kept.files place fun here => other (fewer place here)⟩

end Keeps

/-- The only new directories are a place and those above it. -/
theorem isDir_addDir {place other : Location} :
    (t.addDir place).isDir other = true ↔
      t.isDir other = true ∨ (place.all isEntryName = true ∧ other <+: place) := by
  unfold addDir
  split
  next valid =>
    simp only [isDir, List.any_append, List.any_cons, List.any_nil, Bool.or_false, Bool.or_eq_true,
      List.isPrefixOf_iff_prefix, valid, true_and]
    constructor
    · rintro ((root | listed | part) | held)
      · exact .inl (.inl (.inl root))
      · exact .inl (.inl (.inr listed))
      · exact .inr part
      · exact .inl (.inr held)
    · rintro (((root | listed) | held) | part)
      · exact .inl (.inl root)
      · exact .inl (.inr (.inl listed))
      · exact .inr held
      · exact .inl (.inr (.inr part))
  next invalid => simp [invalid]

/-- The files stay where a directory is made at a place that was free. A place that has become a directory is the
one that was made, and there was nothing. -/
theorem keeps_addDir {place : Location} (enclosed : t.Enclosed place) (free : t.exists? place = false) :
    t.Keeps (fun _ => False) (t.addDir place) := by
  obtain ⟨noFile, noDir⟩ := Bool.or_eq_false_iff.mp free
  have sameFiles : (t.addDir place).files = t.files := by
    unfold addDir
    split <;> rfl
  refine ⟨fun other dir => isDir_addDir.mpr (.inl dir), fun other _ => ?_⟩
  unfold contents?
  rw [sameFiles]
  cases dir : t.isDir other with
  | true => rw [isDir_addDir.mpr (.inl dir)]
  | false =>
    cases new : (t.addDir place).isDir other with
    | false => rfl
    | true =>
      obtain rfl : other = place := by
        rcases isDir_addDir.mp new with old | ⟨-, part⟩
        · exact absurd (dir.symm.trans old) Bool.false_ne_true
        · refine Decidable.byContradiction fun apart => ?_
          exact absurd (dir.symm.trans (enclosed other part apart)) Bool.false_ne_true
      have absent : t.contents? other = none := by simpa [isFile] using noFile
      rw [contents?, noDir, if_neg Bool.false_ne_true] at absent
      rw [if_pos rfl, if_neg Bool.false_ne_true, absent]

/-- The directory of a path is made at a place that was free. -/
theorem keeps_makeDir {p : Path} (made : t.makeDir p = .ok later) : t.Keeps (fun _ => False) later := by
  obtain ⟨place, found, made⟩ := bind_eq_ok.mp made
  split at made
  · simp at made
  next free =>
    rw [← Except.ok.inj made]
    exact keeps_addDir (enclosed_locate found) (Bool.eq_false_iff.mpr free)

/-- Files stay where a directory is made unless it is there. -/
theorem keeps_ensureDir (t : Tree) (p : Path) : t.Keeps (fun _ => False) (t.ensureDir p).2 := by
  unfold ensureDir
  cases made : t.makeDir p with
  | ok later => exact keeps_makeDir made
  | error fault => exact .refl t

/-- Files stay where directories are made one above the other. -/
theorem keeps_makeDirsUp (t : Tree) (room : Nat) (names : List String) :
    t.Keeps (fun _ => False) (t.makeDirsUp room names).2 := by
  induction names generalizing t room with
  | nil => exact keeps_ensureDir t _
  | cons name above inductionHypothesis =>
    rw [makeDirsUp]
    split
    · split
      · exact .refl t
      · have kept := inductionHypothesis t (room - 1)
        split
        next made =>
          rw [made] at kept
          exact kept.trans (keeps_ensureDir _ _)
        next => exact kept
    · exact keeps_ensureDir t _

/-- Files stay where a directory and those above it are made. -/
theorem keeps_makeDirs (t : Tree) (p : Path) : t.Keeps (fun _ => False) (t.makeDirs p).2 := by
  unfold makeDirs
  split
  · exact keeps_makeDirsUp t maxDepth _
  · exact keeps_ensureDir t p

section Files

variable {place : Location} {bytes : ByteArray}

/-- A file in an enclosed place makes no directory and hides none. -/
theorem isDir_addFile (enclosed : t.Enclosed place) (other : Location) :
    (t.addFile place bytes).isDir other = t.isDir other := by
  have above (part : other <+: place) (shorter : other.length < place.length) : t.isDir other = true :=
    enclosed other part fun same => Nat.lt_irrefl _ (same ▸ shorter)
  unfold addFile
  split
  next =>
    rw [Bool.eq_iff_iff]
    simp only [isDir, List.any_cons, List.any_filter, Bool.or_eq_true, Bool.and_eq_true,
      List.isPrefixOf_iff_prefix, decide_eq_true_eq, List.any_eq_true, bne_iff_ne] at above ⊢
    constructor
    · rintro (old | ⟨part, shorter⟩ | ⟨entry, among, -, below⟩)
      · exact .inl old
      · exact above part shorter
      · exact .inr ⟨entry, among, below⟩
    · rintro (old | ⟨entry, among, part, shorter⟩)
      · exact .inl old
      · by_cases here : entry.1 = place
        · exact .inr (.inl ⟨here ▸ part, here ▸ shorter⟩)
        · exact .inr (.inr ⟨entry, among, here, part, shorter⟩)
  next => rfl

/-- A file in an enclosed place changes no other file. -/
theorem contents_addFile_of_ne (enclosed : t.Enclosed place) {other : Location} (apart : other ≠ place) :
    (t.addFile place bytes).contents? other = t.contents? other := by
  have sameDirs : (t.addFile place bytes).isDir other = t.isDir other := isDir_addFile enclosed other
  have sameEntry : (t.addFile place bytes).files.lookup other = t.files.lookup other := by
    unfold addFile
    split
    next =>
      simp only [List.lookup_cons, beq_false_of_ne apart]
      rw [lookup_without, if_neg apart]
    next => rfl
  rw [contents?, contents?, sameDirs, sameEntry]

/-- What is written to a place that is no directory is there. -/
theorem contents_addFile_self (enclosed : t.Enclosed place) (noDir : t.isDir place = false)
    (valid : place.all isEntryName = true) : (t.addFile place bytes).contents? place = some bytes := by
  rw [contents?, isDir_addFile enclosed, noDir, if_neg Bool.false_ne_true, addFile, dif_pos valid]
  exact List.lookup_cons_self

end Files

/-- A file can be written at the place of its path, unless that is a directory. -/
theorem writable_eq_ok {p : Path} {place : Location} (found : t.writable p = .ok place) :
    t.locate p = .ok place ∧ t.isDir place = false := by
  obtain ⟨here, located, checked⟩ := bind_eq_ok.mp found
  split at checked
  · simp at checked
  next noDir =>
    obtain rfl := Except.ok.inj checked
    exact ⟨located, Bool.eq_false_iff.mpr noDir⟩

/-- A file is written at the place of its path. -/
theorem write_eq_ok {p : Path} {bytes : ByteArray} (written : t.write p bytes = .ok later) :
    ∃ place, t.locate p = .ok place ∧ t.isDir place = false ∧ later = t.addFile place bytes := by
  obtain ⟨place, found, added⟩ := bind_eq_ok.mp written
  obtain ⟨located, noDir⟩ := writable_eq_ok found
  exact ⟨place, located, noDir, (Except.ok.inj added).symm⟩

/-- Writing is refused on account of the path alone. -/
theorem holdsZero_of_write {p : Path} {bytes : ByteArray} (refused : t.write p bytes = .error .zeroCharacter) :
    holdsZero p = true := by
  rw [← locate_zero t p]
  cases found : t.locate p with
  | error fault => simpa [write, writable, found, bind, Except.bind] using refused
  | ok place =>
    simp only [write, writable, found, bind, Except.bind] at refused
    split at refused
    next fault checked =>
      split at checked
      · cases checked
        cases refused
      · cases checked
    next => cases refused

/-- Nothing is written where the path is refused. -/
theorem not_holdsZero_of_write {p : Path} {bytes : ByteArray} (written : t.write p bytes = .ok later) :
    holdsZero p = false := by
  obtain ⟨place, found, -⟩ := write_eq_ok written
  rw [Bool.eq_false_iff]
  intro zero
  exact absurd ((locate_zero t p).mpr zero ▸ found) (by simp)

/-- What was written is there. -/
theorem contents_of_write {p : Path} (readable : p.Readable) {bytes : ByteArray}
    (written : t.write p bytes = .ok later) :
    ∃ place, later.locate p = .ok place ∧ later.contents? place = some bytes := by
  obtain ⟨place, found, noDir, rfl⟩ := write_eq_ok written
  have enclosed := enclosed_locate found
  exact ⟨place, locate_mono (fun above dir => (isDir_addFile enclosed above).trans dir) found,
    contents_addFile_self enclosed noDir (all_isEntryName_locate readable found)⟩

/-- A file is appended to at the place of its path. -/
theorem append_eq_ok {p : Path} {bytes : ByteArray} (appended : t.append p bytes = .ok later) :
    ∃ place all, t.locate p = .ok place ∧ t.isDir place = false ∧ later = t.addFile place all := by
  obtain ⟨place, found, added⟩ := bind_eq_ok.mp appended
  obtain ⟨located, noDir⟩ := writable_eq_ok found
  exact ⟨place, _, located, noDir, (Except.ok.inj added).symm⟩

/-- Appending touches the place of the path alone. -/
theorem keeps_append {p : Path} {bytes : ByteArray} (appended : t.append p bytes = .ok later) :
    t.Keeps (fun place => later.locate p = .ok place) later := by
  obtain ⟨place, all, found, -, rfl⟩ := append_eq_ok appended
  have enclosed := enclosed_locate found
  have dirs (above : Location) : (t.addFile place all).isDir above = t.isDir above :=
    isDir_addFile enclosed above
  refine ⟨fun above dir => (dirs above).trans dir, fun other elsewhere => ?_⟩
  refine contents_addFile_of_ne enclosed ?_
  rintro rfl
  exact elsewhere (locate_mono (fun above dir => (dirs above).trans dir) found)

/-- A change in the directory of a path is made once that directory is there. -/
theorem inItsDirectory_eq_ok {p : Path} {change : Tree → Except FileFault Tree}
    (changed : t.inItsDirectory p change = (.ok (), later)) :
    ∃ between, t.makeDirs p.parent = (.ok (), between) ∧ change between = .ok later := by
  unfold inItsDirectory at changed
  split at changed
  next between made =>
    split at changed
    next changedTo =>
      cases changed
      exact ⟨between, made, changedTo⟩
    next => cases changed
  next failed => exact absurd changed (failed later)

/-- A change in the directory of a path that fails changes no file. -/
theorem keeps_inItsDirectory {p : Path} {change : Tree → Except FileFault Tree} {fault : FileFault}
    (failed : t.inItsDirectory p change = (.error fault, later)) : t.Keeps (fun _ => False) later := by
  have kept := keeps_makeDirs t p.parent
  unfold inItsDirectory at failed
  split at failed
  next made =>
    split at failed
    next => cases failed
    next =>
      cases failed
      rwa [made] at kept
  next => rwa [failed] at kept

end Tree

end ComLayout
