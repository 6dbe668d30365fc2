import ComLayout.Glob.Exclusion
import Mathlib.Data.List.Forall2

/-!
# Matching parts

A pattern without anchor matches a path if its parts match the last parts of the path, one by one. A part
without wildcards matches itself alone, so a pattern of such parts matches the paths that end in it. The
part `**` matches every name, but always one.
-/

namespace ComLayout.Glob

/-- A text without wildcards is read character by character. -/
theorem piecesFrom_plain {cs : List Char} (plain : ∀ c ∈ cs, c ≠ '*' ∧ c ≠ '?' ∧ c ≠ '[') :
    piecesFrom 0 cs = cs.map Piece.char := by
  induction cs with
  | nil => rfl
  | cons c rest inductionHypothesis =>
    obtain ⟨noStar, noMark, noBracket⟩ := plain c List.mem_cons_self
    have behind := inductionHypothesis fun other member => plain other (List.mem_cons_of_mem c member)
    simp [piecesFrom, noStar, noMark, noBracket, behind]

/-- A text has no wildcards exactly if none of its characters is one. -/
theorem hasWildcard_eq_false {text : String} :
    hasWildcard text = false ↔ ∀ c ∈ text.toList, c ≠ '*' ∧ c ≠ '?' ∧ c ≠ '[' := by
  simp [hasWildcard, and_assoc]

/-- A part without wildcards matches itself alone. -/
theorem matchesName_plain {part name : String} (plain : hasWildcard part = false) :
    matchesName part name = true ↔ name = part := by
  rw [matchesName, piecesOf, piecesFrom_plain (hasWildcard_eq_false.mp plain), literal_matches,
    String.toList_inj]

/-- Two stars match every name. -/
theorem matchesName_doubleStar (name : String) : matchesName "**" name = true := by
  have pieces : piecesOf "**" = [.star, .star] := by decide
  have first : (suffixes name.toList).head? = some name.toList := by cases name.toList <;> rfl
  have none : ∃ left ∈ suffixes name.toList, left = [] := ⟨[], nil_mem_suffixes name.toList, rfl⟩
  simpa [matchesName, pieces, matchesPieces, leaveAll, Piece.leave, first] using none

/-- What is left of a text after each of its beginnings are its ends. -/
theorem mem_suffixes {left cs : List Char} : left ∈ suffixes cs ↔ left <:+ cs := by
  induction cs with
  | nil => simp [suffixes]
  | cons c rest inductionHypothesis => rw [suffixes, List.mem_cons, inductionHypothesis, List.suffix_cons_iff]

/-- Characters leave nothing of exactly those texts that they spell. -/
theorem nil_mem_leaveAll {cs : List Char} {left : List (List Char)} :
    [] ∈ leaveAll (cs.map Piece.char) left ↔ cs ∈ left := by
  induction cs generalizing left with
  | nil => rfl
  | cons c rest inductionHypothesis =>
    have step (text : List Char) : (Piece.char c).step text = some rest ↔ text = c :: rest := by
      cases text with
      | nil => simp [Piece.step]
      | cons d more =>
        by_cases same : c = d
        · simp [Piece.step, Piece.admits, same]
        · simp [Piece.step, Piece.admits, same, Ne.symm same]
    have first : rest ∈ (Piece.char c).leave left ↔ c :: rest ∈ left := by
      simp only [Piece.leave, List.mem_filterMap, step, exists_eq_right]
    rw [List.map_cons, leaveAll, inductionHypothesis, first]

/-- A star and characters match the texts that end in these. -/
theorem matchesPieces_star {ending text : List Char} :
    matchesPieces (.star :: ending.map Piece.char) text = true ↔ ending <:+ text := by
  have left : Piece.star.leave [text] = suffixes text := rfl
  rw [matchesPieces, leaveAll, left, ← mem_suffixes, ← nil_mem_leaveAll]
  simp

/-- Whether parts match names, each its own. -/
def MatchEach (parts names : List String) : Prop :=
  List.Forall₂ (fun part name => matchesName part name = true) parts names

/-- Parts that are not more than names match the first of these. -/
theorem zip_all_matches (parts names : List String) :
    (parts.length ≤ names.length ∧
        (parts.zip names).all (fun (part, name) => matchesName part name) = true) ↔
      ∃ front, front <+: names ∧ MatchEach parts front := by
  induction parts generalizing names with
  | nil => exact ⟨fun _ => ⟨[], List.nil_prefix, .nil⟩, fun _ => ⟨Nat.zero_le _, rfl⟩⟩
  | cons part rest inductionHypothesis =>
    cases names with
    | nil =>
      constructor
      · rintro ⟨short, -⟩
        simp at short
      · rintro ⟨front, within, each⟩
        rw [List.prefix_nil.mp within] at each
        cases each
    | cons name others =>
      constructor
      · rintro ⟨short, all⟩
        simp only [List.zip_cons_cons, List.all_cons, Bool.and_eq_true] at all
        obtain ⟨front, within, each⟩ :=
          (inductionHypothesis others).mp ⟨Nat.le_of_succ_le_succ short, all.2⟩
        exact ⟨name :: front, List.cons_prefix_cons.mpr ⟨rfl, within⟩, .cons all.1 each⟩
      · rintro ⟨front, within, each⟩
        cases each with
        | cons first later =>
          obtain ⟨rfl, onward⟩ := List.cons_prefix_cons.mp within
          obtain ⟨short, all⟩ := (inductionHypothesis others).mpr ⟨_, onward, later⟩
          exact ⟨Nat.succ_le_succ short, by simp [first, all]⟩

/-- Parts match from the end what they match one by one at the end. -/
theorem matchesTail_iff (parts names : List String) :
    matchesTail parts names = true ↔ ∃ ending, ending <:+ names ∧ MatchEach parts ending := by
  have backwards := zip_all_matches parts.reverse names.reverse
  simp only [List.length_reverse] at backwards
  rw [matchesTail, Bool.and_eq_true, decide_eq_true_eq, backwards]
  constructor
  · rintro ⟨front, within, each⟩
    refine ⟨front.reverse, ?_, ?_⟩
    · rwa [← List.reverse_prefix, List.reverse_reverse]
    · rwa [MatchEach, ← List.forall₂_reverse_iff, List.reverse_reverse]
  · rintro ⟨ending, within, each⟩
    exact ⟨ending.reverse, List.reverse_prefix.mpr within, List.forall₂_reverse_iff.mpr each⟩

/-- Parts without wildcards match themselves, and what follows them matches the rest. -/
theorem matchEach_append {plain : List String} (each : ∀ part ∈ plain, hasWildcard part = false)
    (parts names : List String) :
    MatchEach (plain ++ parts) names ↔ ∃ rest, names = plain ++ rest ∧ MatchEach parts rest := by
  induction plain generalizing names with
  | nil => simp
  | cons part more inductionHypothesis =>
    have later := inductionHypothesis fun other member => each other (List.mem_cons_of_mem part member)
    constructor
    · rintro matched
      cases matched with
      | @cons _ name _ others first behind =>
        obtain ⟨rest, rfl, matched⟩ := (later others).mp behind
        exact ⟨rest, by rw [(matchesName_plain (each part List.mem_cons_self)).mp first]; rfl, matched⟩
    · rintro ⟨rest, rfl, matched⟩
      exact .cons ((matchesName_plain (each part List.mem_cons_self)).mpr rfl) ((later _).mpr ⟨rest, rfl, matched⟩)

/-- Parts without wildcards match themselves alone. -/
theorem matchEach_plain {parts : List String} (plain : ∀ part ∈ parts, hasWildcard part = false)
    (names : List String) : MatchEach parts names ↔ names = parts := by
  have split := matchEach_append plain [] names
  rw [List.append_nil] at split
  rw [split]
  simp [MatchEach]

/-- Parts without wildcards match the paths that end in them. -/
theorem matchesTail_plain {parts : List String} (plain : ∀ part ∈ parts, hasWildcard part = false)
    (names : List String) : matchesTail parts names = true ↔ parts <:+ names := by
  simp [matchesTail_iff, matchEach_plain plain]

/-- A double star between parts without wildcards stands for one name. -/
theorem matchesTail_doubleStar {front back : List String}
    (plainFront : ∀ part ∈ front, hasWildcard part = false)
    (plainBack : ∀ part ∈ back, hasWildcard part = false) (names : List String) :
    matchesTail (front ++ "**" :: back) names = true ↔ ∃ name, front ++ name :: back <:+ names := by
  have behind (rest : List String) : MatchEach ("**" :: back) rest ↔ ∃ name, rest = name :: back := by
    rw [MatchEach, List.forall₂_cons_left_iff]
    constructor
    · rintro ⟨name, others, -, each, rfl⟩
      exact ⟨name, by rw [(matchEach_plain plainBack others).mp each]⟩
    · rintro ⟨name, rfl⟩
      exact ⟨name, back, matchesName_doubleStar name, (matchEach_plain plainBack back).mpr rfl, rfl⟩
  rw [matchesTail_iff]
  constructor
  · rintro ⟨ending, within, each⟩
    obtain ⟨rest, rfl, matched⟩ := (matchEach_append plainFront _ ending).mp each
    obtain ⟨name, rfl⟩ := (behind rest).mp matched
    exact ⟨name, within⟩
  · rintro ⟨name, within⟩
    exact ⟨_, within, (matchEach_append plainFront _ _).mpr ⟨_, rfl, (behind _).mpr ⟨name, rfl⟩⟩⟩

end ComLayout.Glob
