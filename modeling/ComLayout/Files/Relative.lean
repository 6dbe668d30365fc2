import ComLayout.Files.Path

/-!
# Relative paths

Walking along names from a directory enters each in turn, and `..` goes back to the parent directory.
A path is resolved by walking from the working directory, without regard to what exists. The way from
a directory to a place goes up to the last directory that they share, and from there down.
-/

namespace ComLayout

/-- Walk along names. -/
def walk (place : List String) : List String → List String
  | [] => place
  | name :: rest => walk (if name = ".." then place.dropLast else place ++ [name]) rest

/-- The place of a path, for a working directory. -/
def Path.resolve (working : List String) (p : Path) : List String :=
  walk (if p.anchor = .none then working else []) p.names

/-- The way from a directory to a place. -/
def wayTo : (start target : List String) → List String
  | a :: start, b :: target =>
    if a = b then wayTo start target else List.replicate (start.length + 1) ".." ++ b :: target
  | start, target => List.replicate start.length ".." ++ target

/-- Walking on after walking. -/
theorem walk_append (place first second : List String) :
    walk place (first ++ second) = walk (walk place first) second := by
  induction first generalizing place with
  | nil => rfl
  | cons name rest inductionHypothesis => simp [walk, inductionHypothesis]

/-- Without `..` walking enters the names. -/
theorem walk_down (place names : List String) (down : ".." ∉ names) :
    walk place names = place ++ names := by
  induction names generalizing place with
  | nil => simp [walk]
  | cons name rest inductionHypothesis =>
    simp only [List.mem_cons, not_or] at down
    have entered : name ≠ ".." := fun same => down.1 same.symm
    simp [walk, entered, inductionHypothesis _ down.2]

/-- Each `..` gives up the last name. -/
theorem walk_up (place : List String) (n : Nat) :
    walk place (List.replicate n "..") = place.take (place.length - n) := by
  induction n generalizing place with
  | zero => simp [walk]
  | succ n inductionHypothesis =>
    rw [List.replicate_succ, walk, if_pos rfl, inductionHypothesis, List.dropLast_eq_take,
      List.take_take, List.length_take]
    congr 1
    omega

/-- As many `..` as there are names lead back out of them. -/
theorem walk_back (place names : List String) :
    walk (place ++ names) (List.replicate names.length "..") = place := by
  simp [walk_up]

end ComLayout
