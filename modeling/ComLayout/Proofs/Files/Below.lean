import ComLayout.Proofs.Files.Spelling

/-!
# What lies below a directory

A location is in use if something is listed there or below. The names that lead to the entries below a
directory are those behind which the tree is in use, and the names of its entries are those among them that
stand alone. What stands above a location in use is a directory.
-/

namespace ComLayout.Tree

variable {t : Tree} {place names : Location}

/-- The stages of a location are its beginnings that are not empty. -/
theorem mem_stages {stage : Location} : stage ∈ stages place ↔ stage ≠ [] ∧ stage <+: place := by
  induction place generalizing stage with
  | nil =>
    constructor
    · intro member
      exact absurd member List.not_mem_nil
    · rintro ⟨filled, part⟩
      exact absurd (List.prefix_nil.mp part) filled
  | cons name rest inductionHypothesis =>
    rw [stages, List.mem_cons, List.mem_map]
    constructor
    · rintro (rfl | ⟨later, among, rfl⟩)
      · exact ⟨by simp, List.prefix_append [name] rest⟩
      · exact ⟨by simp, List.cons_prefix_cons.mpr ⟨rfl, (inductionHypothesis.mp among).2⟩⟩
    · rintro ⟨filled, part⟩
      cases stage with
      | nil => exact absurd rfl filled
      | cons first more =>
        obtain ⟨rfl, behind⟩ := List.cons_prefix_cons.mp part
        by_cases single : more = []
        · exact .inl (by rw [single])
        · exact .inr ⟨more, inductionHypothesis.mpr ⟨single, behind⟩, rfl⟩

/-- A location is a directory exactly if it is the root, or a directory is listed there or below, or a file
below. -/
theorem isDir_iff : t.isDir place = true ↔ place = [] ∨ (∃ listed ∈ t.dirs, place <+: listed) ∨
    ∃ entry ∈ t.files, place <+: entry.1 ∧ place.length < entry.1.length := by
  simp only [isDir, Bool.or_eq_true, List.any_eq_true, List.isEmpty_iff, Bool.and_eq_true,
    List.isPrefixOf_iff_prefix, decide_eq_true_eq, or_assoc]

/-- A listed file is a file, unless its location is a directory. -/
theorem isFile_of_mem {entry : Location × ByteArray} (member : entry ∈ t.files)
    (undirected : t.isDir entry.1 = false) : t.isFile entry.1 = true := by
  rw [isFile, contents?, undirected, if_neg Bool.false_ne_true, List.lookup_isSome_iff]
  exact ⟨entry, member, beq_self_eq_true entry.1⟩

/-- The location of a file is listed. -/
theorem listed_of_isFile (file : t.isFile place = true) : place ∈ t.listed := by
  rw [isFile, contents?, t.isDir_of_isFile place file, if_neg Bool.false_ne_true,
    List.lookup_isSome_iff] at file
  obtain ⟨entry, among, same⟩ := file
  rw [eq_of_beq same]
  exact List.mem_append_right _ (List.mem_map_of_mem among)

/-- A location is in use exactly if it is the root, or something is listed there or below. -/
theorem exists_iff : t.exists? place = true ↔ place = [] ∨ ∃ listed ∈ t.listed, place <+: listed := by
  rw [exists?, Bool.or_eq_true]
  constructor
  · rintro (file | dir)
    · exact .inr ⟨place, listed_of_isFile file, List.prefix_rfl⟩
    · rcases isDir_iff.mp dir with root | ⟨listed, among, part⟩ | ⟨entry, among, part, -⟩
      · exact .inl root
      · exact .inr ⟨listed, List.mem_append_left _ among, part⟩
      · exact .inr ⟨entry.1, List.mem_append_right _ (List.mem_map_of_mem among), part⟩
  · rintro (root | ⟨listed, among, part⟩)
    · exact .inr (isDir_iff.mpr (.inl root))
    · rcases List.mem_append.mp among with inDirs | inFiles
      · exact .inr (isDir_iff.mpr (.inr (.inl ⟨listed, inDirs, part⟩)))
      · obtain ⟨entry, within, rfl⟩ := List.mem_map.mp inFiles
        rcases Nat.lt_or_ge place.length entry.1.length with shorter | whole
        · exact .inr (isDir_iff.mpr (.inr (.inr ⟨entry, within, part, shorter⟩)))
        · obtain rfl := part.eq_of_length (Nat.le_antisymm part.length_le whole)
          cases dir : t.isDir entry.1 with
          | true => exact .inr rfl
          | false => exact .inl (isFile_of_mem within dir)

/-- A directory is in use. -/
theorem exists_of_isDir (dir : t.isDir place = true) : t.exists? place = true := by
  rw [exists?, dir, Bool.or_true]

/-- What stands above a location in use is a directory. -/
theorem isDir_of_exists (found : t.exists? (place ++ names) = true) (filled : names ≠ []) :
    t.isDir place = true := by
  have longer : place.length < (place ++ names).length := by
    rw [List.length_append]
    exact Nat.lt_add_of_pos_right (List.length_pos_iff.mpr filled)
  rcases exists_iff.mp found with root | ⟨listed, among, part⟩
  · exact absurd (List.append_eq_nil_iff.mp root).2 filled
  · have above : place <+: listed := (List.prefix_append place names).trans part
    rcases List.mem_append.mp among with inDirs | inFiles
    · exact isDir_iff.mpr (.inr (.inl ⟨listed, inDirs, above⟩))
    · obtain ⟨entry, within, rfl⟩ := List.mem_map.mp inFiles
      exact isDir_iff.mpr (.inr (.inr ⟨entry, within, above, Nat.lt_of_lt_of_le longer part.length_le⟩))

/-- What stands above a directory is one. -/
theorem isDir_of_isPrefix {above : Location} (dir : t.isDir place = true) (part : above <+: place) :
    t.isDir above = true := by
  obtain ⟨rest, rfl⟩ := part
  by_cases whole : rest = []
  · rwa [whole, List.append_nil] at dir
  · exact isDir_of_exists (exists_of_isDir dir) whole

/-- A location in use is made of names that entries can have. -/
theorem isEntryName_of_exists (found : t.exists? place = true) :
    ∀ name ∈ place, isEntryName name = true := by
  intro name member
  rcases exists_iff.mp found with rfl | ⟨listed, among, part⟩
  · exact absurd member List.not_mem_nil
  · exact t.named listed among name (part.subset member)

/-- Names behind which the tree is in use do not lead back. -/
theorem not_back_of_exists (found : t.exists? (place ++ names) = true) : ".." ∉ names := by
  intro back
  have entry := isEntryName_of_exists found ".." (List.mem_append_right place back)
  exact absurd entry (by decide)

/-- Names lead to an entry below a directory exactly if the location behind them is in use. -/
theorem mem_below : names ∈ t.below place ↔ names ≠ [] ∧ t.exists? (place ++ names) = true := by
  rw [below, List.mem_eraseDups, List.mem_flatMap]
  constructor
  · rintro ⟨listed, kept, stage⟩
    obtain ⟨among, above⟩ := List.mem_filter.mp kept
    obtain ⟨rest, rfl⟩ := List.isPrefixOf_iff_prefix.mp above
    rw [List.drop_left] at stage
    obtain ⟨filled, part⟩ := mem_stages.mp stage
    exact ⟨filled, exists_iff.mpr (.inr ⟨_, among, (List.prefix_append_right_inj place).mpr part⟩)⟩
  · rintro ⟨filled, found⟩
    rcases exists_iff.mp found with root | ⟨listed, among, part⟩
    · exact absurd (List.append_eq_nil_iff.mp root).2 filled
    · have above : place <+: listed := (List.prefix_append place names).trans part
      obtain ⟨rest, rfl⟩ := above
      refine ⟨place ++ rest, List.mem_filter.mpr ⟨among, ?_⟩, ?_⟩
      · exact List.isPrefixOf_iff_prefix.mpr (List.prefix_append place rest)
      · rw [List.drop_left]
        exact mem_stages.mpr ⟨filled, (List.prefix_append_right_inj place).mp part⟩

/-- A name is that of an entry in a directory exactly if the location behind it is in use. -/
theorem mem_children {name : String} : name ∈ t.children place ↔ t.exists? (place ++ [name]) = true := by
  rw [children, List.mem_eraseDups, List.mem_filterMap]
  constructor
  · rintro ⟨listed, kept, first⟩
    obtain ⟨among, above⟩ := List.mem_filter.mp kept
    obtain ⟨rest, rfl⟩ := List.isPrefixOf_iff_prefix.mp above
    rw [List.drop_left] at first
    obtain ⟨more, rfl⟩ := List.head?_eq_some_iff.mp first
    exact exists_iff.mpr (.inr ⟨_, among, by simp⟩)
  · intro found
    rcases exists_iff.mp found with root | ⟨listed, among, rest, rfl⟩
    · simp at root
    · refine ⟨_, List.mem_filter.mpr ⟨among, ?_⟩, ?_⟩
      · simp [List.append_assoc]
      · simp [List.append_assoc]

/-- The names that lead to the entries below a directory are names that entries can have. -/
theorem isEntryName_of_mem_below (member : names ∈ t.below place) :
    ∀ name ∈ names, isEntryName name = true :=
  fun name inside => isEntryName_of_exists (mem_below.mp member).2 name (List.mem_append_right place inside)

/-- The names of the entries in a directory are names that entries can have. -/
theorem isEntryName_of_mem_children {name : String} (member : name ∈ t.children place) :
    isEntryName name = true :=
  isEntryName_of_exists (mem_children.mp member) name (by simp)

end ComLayout.Tree
