import ComLayout.Header.Declaration
import ComLayout.Proofs.Text.Character
import ComLayout.Proofs.Text.Stretch

/-!
# The vocabulary of the header grammars

The pieces that the grammars of declarations and methods are put together from: runs of white space, gaps and
word characters, word boundaries, and names that are compared without regard to case.
-/

namespace ComLayout.Header

open Text Place

/-- White space throughout. -/
def Blanks (cs : List Char) : Prop := ∀ c ∈ cs, isBlank c = true

/-- Spaces and tabs throughout. -/
def Gaps (cs : List Char) : Prop := ∀ c ∈ cs, isGap c = true

instance (cs : List Char) : Decidable (Blanks cs) := inferInstanceAs (Decidable (∀ c ∈ cs, isBlank c = true))

instance (cs : List Char) : Decidable (Gaps cs) := inferInstanceAs (Decidable (∀ c ∈ cs, isGap c = true))

/-- A run of word characters, one at least. -/
def WordRun (cs : List Char) : Prop := cs ≠ [] ∧ ∀ c ∈ cs, isWord c = true

instance (cs : List Char) : Decidable (WordRun cs) :=
  inferInstanceAs (Decidable (cs ≠ [] ∧ ∀ c ∈ cs, isWord c = true))

/-- A word boundary lies between two parts of a text. -/
def Boundary (front back : List Char) : Prop := isBoundary front.getLast? back.head? = true

/-- Spaces and tabs are white space. -/
theorem blanks_of_gaps {cs : List Char} (gaps : Gaps cs) : Blanks cs :=
  fun c held => isBlank_of_isGap c (gaps c held)

/-- A word character is neither space nor tab. -/
theorem isGap_of_isWord (c : Char) (word : isWord c = true) : isGap c = false := by
  cases gap : isGap c with
  | false => rfl
  | true =>
    have blank := isBlank_of_isGap c gap
    rw [isBlank_of_isWord c word] at blank
    exact absurd blank Bool.false_ne_true

/-- A character that is no white space stands in no run of it. -/
theorem not_mem_of_blanks {cs : List Char} {c : Char} (blanks : Blanks cs) (other : isBlank c = false) :
    c ∉ cs := by
  intro held
  rw [blanks c held] at other
  exact Bool.noConfusion other

/-- A character that is no word character stands in no run of them. -/
theorem not_mem_of_wordRun {cs : List Char} {c : Char} (word : WordRun cs) (other : isWord c = false) :
    c ∉ cs := by
  intro held
  rw [word.2 c held] at other
  exact Bool.noConfusion other

/-- The boundary at a place is that between the parts of the text it lies between. -/
theorem isBoundary_placeAt (front back : List Char) :
    (placeAt front back).isBoundary = true ↔ Boundary front back := by
  rw [Place.isBoundary, placeAt_before, placeAt_rest, Boundary]

/-- A place holds a word character if some character stands there and is one. -/
theorem holdsWord_eq_any (c : Option Char) : holdsWord c = c.any isWord := by cases c <;> rfl

/-- A longest run of word characters is read where it stands. -/
theorem run?_isWord_iff (p : Place) (cs : List Char) (q : Place) :
    p.run? isWord = some (cs, q) ↔ WordRun cs ∧ p.Behind cs q ∧ holdsWord q.rest.head? = false := by
  rw [run?_iff_behind, holdsWord_eq_any, WordRun, and_assoc]

/-- A run behind which a character of another kind stands is read with it. -/
theorem run?_of_behind {p q : Place} {cond : Char → Bool} {cs : List Char} {c : Char} {rest : List Char}
    (some_ : cs ≠ []) (meets : ∀ d ∈ cs, cond d = true) (behind : p.Behind cs q) (text : q.rest = c :: rest)
    (stops : cond c = false) : p.run? cond = some (cs, q) := by
  rw [run?_iff_behind]
  exact ⟨some_, meets, behind, by simp [text, stops]⟩

/-- A whole name is read exactly where it stands up to case with a boundary behind it. -/
theorem wholeName?_iff (name : List Char) (p : Place) (written : List Char) (q : Place) :
    wholeName? name p = some (written, q) ↔
      sameWord name written = true ∧ p.Behind written q ∧ q.isBoundary = true := by
  simp only [wholeName?, Option.bind_eq_bind, Option.bind_eq_some_iff, Prod.exists, name?_eq_some,
    demand_eq_some, Option.some.injEq, Prod.mk.injEq]
  constructor
  · rintro ⟨cs, stop, ⟨begins, alike, behind⟩, _, ⟨bounded, rfl⟩, rfl, rfl⟩
    exact ⟨alike, ⟨begins, behind⟩, bounded⟩
  · rintro ⟨alike, ⟨begins, behind⟩, bounded⟩
    exact ⟨written, q, ⟨begins, alike, behind⟩, q, ⟨bounded, rfl⟩, rfl, rfl⟩

end ComLayout.Header
