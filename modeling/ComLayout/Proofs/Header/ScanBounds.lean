import ComLayout.Header.Methods
import ComLayout.Proofs.Header.Vocabulary

/-!
# Where a scan for methods begins and ends

The methods of a classic interface stand behind the name of its struct and before the word that ends it, those
of a declarative interface before the line that closes it. Both bounds are said here by the text alone: the
first offset, from another one on, at which such a word or line stands.
-/

namespace ComLayout.Header

open Text Place

/-- A word stands at an offset of a text, with a boundary on either side. -/
def WholeWordAt (text word : List Char) (i : Nat) : Prop :=
  ∃ front back, text = front ++ (word ++ back) ∧ front.length = i ∧ Boundary front (word ++ back) ∧
    Boundary (front ++ word) back

/-- The line that ends the body of a declarative interface, up to its name. -/
inductive ClosingLine (name : List Char) : List Char → Prop where
  | mk {indent gap gap₂ gap₃ gap₄ written : List Char} (gaps : Gaps indent) (gaps₁ : Gaps gap)
      (gaps₂ : Gaps gap₂) (gaps₃ : Gaps gap₃) (gaps₄ : Gaps gap₄) (apart : gap₄ ≠ [])
      (alike : sameWord name written = true) :
      ClosingLine name ((indent ++ "\x7d".toList) ++ (gap ++ ";".toList) ++ (gap₂ ++ "//".toList) ++
        (gap₃ ++ "interface".toList) ++ (gap₄ ++ written))

/-- A line begins behind a part of a text. -/
def LineStart (front : List Char) : Prop := front = [] ∨ front.getLast? = some '\n'

/-- A line that starts at an offset closes the interface of that name. -/
def ClosesAt (text name : List Char) (i : Nat) : Prop :=
  ∃ front line back, text = front ++ (line ++ back) ∧ front.length = i ∧ LineStart front ∧
    ClosingLine name line ∧ Boundary (front ++ line) back

/-- The methods of an interface end at an offset. -/
def Terminates (text : List Char) (grammar : Grammar) (name : String) (i : Nat) : Prop :=
  match grammar with
  | .classic => WholeWordAt text "END_INTERFACE".toList i
  | .declarative => ClosesAt text name.toList i

/-- Where the search for the methods of an interface begins: behind the name of its struct, or where the
search was asked to begin. -/
def ScanStart (text : List Char) (start : Nat) (grammar : Grammar) (name : String) (low : Nat) : Prop :=
  match grammar with
  | .classic => ∃ i, FirstFrom (WholeWordAt text (name ++ "Vtbl").toList) start i ∧
      low = i + (name ++ "Vtbl").toList.length
  | .declarative => low = start

/-- Where the search ends: at the first offset at which the methods of the interface end, or with the text. -/
def ScanLimit (text : List Char) (grammar : Grammar) (name : String) (low limit : Nat) : Prop :=
  FirstFrom (Terminates text grammar name) low limit ∨
    (∀ i, low ≤ i → ¬ Terminates text grammar name i) ∧ limit = text.length

section WholeWords

/-- A word with a boundary on either side. -/
def wholeWord? (word : String) (p : Place) : Option Place := do
  let p ← p.demand Place.isBoundary
  let p ← p.word? word
  p.demand Place.isBoundary

theorem structNameAt?_eq (name : String) : structNameAt? name = wholeWord? (name ++ "Vtbl") := rfl

/-- A whole word is read exactly where it stands with boundaries around it. -/
theorem wholeWord?_iff (word : String) (front back : List Char) (q : Place) :
    wholeWord? word (placeAt front back) = some q ↔
      ∃ rest, back = word.toList ++ rest ∧ q = placeAt (front ++ word.toList) rest ∧
        Boundary front back ∧ Boundary (front ++ word.toList) rest := by
  simp only [wholeWord?, Option.bind_eq_bind, Option.bind_eq_some_iff, demand_eq_some, word?_iff_behind]
  constructor
  · rintro ⟨_, ⟨bounded, rfl⟩, _, behind, ⟨ended, rfl⟩⟩
    obtain ⟨rest, text, rfl⟩ := (behind_placeAt _ _ _ _).mp behind
    exact ⟨rest, text, rfl, (isBoundary_placeAt _ _).mp bounded, (isBoundary_placeAt _ _).mp ended⟩
  · rintro ⟨rest, text, rfl, bounded, ended⟩
    exact ⟨_, ⟨(isBoundary_placeAt _ _).mpr bounded, rfl⟩, _,
      (behind_placeAt _ _ _ _).mpr ⟨rest, text, rfl⟩, (isBoundary_placeAt _ _).mpr ended, rfl⟩

/-- The reader of a whole word agrees with where it stands. -/
theorem wholeWord?_agrees (word : String) (text : List Char) :
    AgreesWith (wholeWord? word) text (WholeWordAt text word.toList) := by
  constructor
  · rintro front back rfl
    simp only [wholeWord?_iff]
    constructor
    · rintro ⟨_, rest, rfl, _, bounded, ended⟩
      exact ⟨front, rest, rfl, rfl, bounded, ended⟩
    · rintro ⟨first, rest, split, length, bounded, ended⟩
      obtain ⟨rfl, rfl⟩ := List.append_inj split length.symm
      exact ⟨_, rest, rfl, rfl, bounded, ended⟩
  · rintro i ⟨front, back, rfl, rfl, _⟩
    rw [List.length_append]
    exact Nat.le_add_right _ _

end WholeWords

section ClosingLines

/-- A name behind a gap is read if some part of the gaps here leads to it. -/
theorem gap_wholeName?_iff (name : List Char) (p : Place) :
    (∃ r, ((p.reach isGap).filter (p.offset < ·.offset)).findSome? (wholeName? name) = some r) ↔
      ∃ gap written q, Gaps gap ∧ gap ≠ [] ∧ sameWord name written = true ∧ p.Behind (gap ++ written) q ∧
        q.isBoundary = true := by
  rw [← Option.isSome_iff_exists, List.findSome?_isSome_iff]
  simp only [List.mem_filter, mem_reach_iff, decide_eq_true_eq, Option.isSome_iff_exists, Prod.exists,
    wholeName?_iff]
  constructor
  · rintro ⟨r, ⟨⟨gap, gaps, toName⟩, apart⟩, written, q, alike, overName, bounded⟩
    refine ⟨gap, written, q, gaps, ?_, alike, behind_trans toName overName, bounded⟩
    rintro rfl
    rw [toName.2, past_nil] at apart
    exact Nat.lt_irrefl _ apart
  · rintro ⟨gap, written, q, gaps, apart, alike, behind, bounded⟩
    obtain ⟨r, toName, overName⟩ := (behind_append _ _ _ _).mp behind
    refine ⟨r, ⟨⟨gap, gaps, toName⟩, ?_⟩, written, q, alike, overName, bounded⟩
    rw [toName.2, past_offset]
    exact Nat.lt_add_of_pos_right (List.length_pos_iff.mpr apart)

/-- A closing line is read exactly where a line begins and goes on with it, up to a boundary. -/
theorem declarativeEndAt?_iff (name : List Char) (p : Place) :
    (∃ q, declarativeEndAt? name p = some q) ↔
      p.isLineStart = true ∧ ∃ line q, ClosingLine name line ∧ p.Behind line q ∧ q.isBoundary = true := by
  have accepts (p : Place) (word : String) (q : Place) (w : Char) (ws : List Char)
      (spelled : word.toList = w :: ws) (stops : isGap w = false) :=
    skip_word?_iff p isGap word q w ws spelled stops
  simp only [declarativeEndAt?, Option.bind_eq_bind, Option.bind_eq_some_iff, demand_eq_some]
  constructor
  · rintro ⟨_, _, ⟨begins, rfl⟩, a, brace, b, semicolon, c, slashes, d, keyword, r, found, _⟩
    obtain ⟨indent, gaps, toBrace⟩ := (accepts _ _ a '\x7d' [] rfl (by decide)).mp brace
    obtain ⟨gap, gaps₁, toSemicolon⟩ := (accepts a _ b ';' [] rfl (by decide)).mp semicolon
    obtain ⟨gap₂, gaps₂, toSlashes⟩ := (accepts b _ c '/' ['/'] rfl (by decide)).mp slashes
    obtain ⟨gap₃, gaps₃, toKeyword⟩ := (accepts c _ d 'i' "nterface".toList rfl (by decide)).mp keyword
    obtain ⟨gap₄, written, q, gaps₄, apart, alike, toName, bounded⟩ :=
      (gap_wholeName?_iff name d).mp ⟨r, found⟩
    exact ⟨begins, _, q, .mk gaps gaps₁ gaps₂ gaps₃ gaps₄ apart alike,
      behind_trans (behind_trans (behind_trans (behind_trans toBrace toSemicolon) toSlashes) toKeyword) toName,
      bounded⟩
  · rintro ⟨begins, _, q, ⟨gaps, gaps₁, gaps₂, gaps₃, gaps₄, apart, alike⟩, behind, bounded⟩
    obtain ⟨d, behind, toName⟩ := (behind_append _ _ _ _).mp behind
    obtain ⟨c, behind, toKeyword⟩ := (behind_append _ _ _ _).mp behind
    obtain ⟨b, behind, toSlashes⟩ := (behind_append _ _ _ _).mp behind
    obtain ⟨a, toBrace, toSemicolon⟩ := (behind_append _ _ _ _).mp behind
    obtain ⟨⟨written, stop⟩, found⟩ :=
      (gap_wholeName?_iff name d).mpr ⟨_, _, q, gaps₄, apart, alike, toName, bounded⟩
    refine ⟨stop, p, ⟨begins, rfl⟩, a, ?_, b, ?_, c, ?_, d, ?_, _, found, rfl⟩
    · exact (accepts p _ a '\x7d' [] rfl (by decide)).mpr ⟨_, gaps, toBrace⟩
    · exact (accepts a _ b ';' [] rfl (by decide)).mpr ⟨_, gaps₁, toSemicolon⟩
    · exact (accepts b _ c '/' ['/'] rfl (by decide)).mpr ⟨_, gaps₂, toSlashes⟩
    · exact (accepts c _ d 'i' "nterface".toList rfl (by decide)).mpr ⟨_, gaps₃, toKeyword⟩

/-- A place is where a line begins if a line begins behind the part of the text before it. -/
theorem isLineStart_placeAt (front back : List Char) :
    (placeAt front back).isLineStart = true ↔ LineStart front := by
  simp [isLineStart, LineStart]

/-- The reader of closing lines agrees with where they stand. -/
theorem declarativeEndAt?_agrees (name text : List Char) :
    AgreesWith (declarativeEndAt? name) text (ClosesAt text name) := by
  constructor
  · rintro front back rfl
    rw [declarativeEndAt?_iff, isLineStart_placeAt]
    simp only [behind_placeAt]
    constructor
    · rintro ⟨begins, line, _, closing, ⟨rest, rfl, rfl⟩, bounded⟩
      exact ⟨front, line, rest, rfl, rfl, begins, closing, (isBoundary_placeAt _ _).mp bounded⟩
    · rintro ⟨first, line, rest, split, length, begins, closing, bounded⟩
      obtain ⟨rfl, rfl⟩ := List.append_inj split length.symm
      exact ⟨begins, line, _, closing, ⟨rest, rfl, rfl⟩, (isBoundary_placeAt _ _).mpr bounded⟩
  · rintro i ⟨front, line, back, rfl, rfl, _⟩
    rw [List.length_append]
    exact Nat.le_add_right _ _

end ClosingLines

section Bounds

/-- The reader of what ends the methods of an interface. -/
def endAt? (grammar : Grammar) (name : String) : Place → Option Place :=
  match grammar with
  | .classic => classicEndAt?
  | .declarative => declarativeEndAt? name.toList

/-- What ends the methods of an interface is read exactly where it stands. -/
theorem endAt?_agrees (grammar : Grammar) (name : String) (text : List Char) :
    AgreesWith (endAt? grammar name) text (Terminates text grammar name) := by
  cases grammar with
  | classic => exact wholeWord?_agrees "END_INTERFACE" text
  | declarative => exact declarativeEndAt?_agrees name.toList text

/-- The limit of a scan is the first offset at which the methods end, or the length of the text. -/
theorem scanLimit_limitOf (text : List Char) (grammar : Grammar) (name : String) (low : Nat) :
    ScanLimit text grammar name low (limitOf (endAt? grammar name) text ((places text).drop low)) := by
  have agrees := endAt?_agrees grammar name text
  unfold limitOf
  cases found : leftmost (endAt? grammar name) ((places text).drop low) with
  | none => exact .inr ⟨leftmost_eq_none agrees low found, rfl⟩
  | some first => exact .inl (leftmost_eq_some agrees low first.1 first.2 found).1

/-- Where the name of the struct is found, the search begins behind its first whole occurrence. -/
theorem scanStart_of_structStart? {text : List Char} {start : Nat} {name : String} {low : Nat}
    (found : structStart? name text start = some low) : ScanStart text start .classic name low := by
  rw [structStart?, structNameAt?_eq, Option.map_eq_some_iff] at found
  obtain ⟨⟨p, q⟩, first, rfl⟩ := found
  obtain ⟨least, front, back, rfl, rfl, read⟩ :=
    leftmost_eq_some (wholeWord?_agrees _ text) start p q first
  obtain ⟨rest, rfl, rfl, _⟩ := (wholeWord?_iff _ _ _ _).mp read
  refine ⟨_, least, ?_⟩
  simp

/-- Where the name of the struct is not found, no search begins. -/
theorem not_scanStart_of_structStart? {text : List Char} {start : Nat} {name : String}
    (nothing : structStart? name text start = none) (low : Nat) : ¬ ScanStart text start .classic name low := by
  rw [structStart?, structNameAt?_eq, Option.map_eq_none_iff] at nothing
  rintro ⟨i, ⟨late, held, _⟩, _⟩
  exact leftmost_eq_none (wholeWord?_agrees _ text) start nothing i late held

end Bounds

end ComLayout.Header
