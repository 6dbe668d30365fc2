import ComLayout.Proofs.Text.Trim

/-!
# The tokens of a text

White space cuts a text into tokens, each of which begins at a column. White space behind a text makes no
difference to its tokens, and white space before a token only moves it on.
-/

namespace ComLayout.Text

/-- A text that white space does not cut: it holds none, and it is not empty. -/
def IsToken (cs : List Char) : Prop := cs ≠ [] ∧ ∀ c ∈ cs, isBlank c = false

instance (cs : List Char) : Decidable (IsToken cs) :=
  decidable_of_iff (cs ≠ [] ∧ cs.all (!isBlank ·) = true) (by simp [IsToken])

/-- Put a character at a column in front of the token that begins right behind it. Where none does, the character
is a token of its own. -/
def beginToken (column : Nat) (c : Char) : List (Nat × List Char) → List (Nat × List Char)
  | [] => [(column, [c])]
  | (start, token) :: more =>
    if start = column + 1 then (column, c :: token) :: more else (column, [c]) :: (start, token) :: more

/-- The tokens of a text that begins at a column, each with the column at which it begins. -/
def tokensFrom (column : Nat) : List Char → List (Nat × List Char)
  | [] => []
  | c :: rest =>
    if isBlank c then tokensFrom (column + 1) rest else beginToken column c (tokensFrom (column + 1) rest)

/-- The tokens of a line, each with the column at which it begins. -/
def tokens (line : List Char) : List (Nat × List Char) := tokensFrom 0 line

/-- A character that is no white space begins the first token. -/
theorem exists_beginToken (column : Nat) (c : Char) (entries : List (Nat × List Char)) :
    ∃ token more, beginToken column c entries = (column, token) :: more := by
  cases entries with
  | nil => exact ⟨[c], [], rfl⟩
  | cons entry entries =>
    rw [beginToken]
    split
    · exact ⟨_, _, rfl⟩
    · exact ⟨_, _, rfl⟩

/-- No token begins before the text does. -/
theorem column_le_of_first {column start : Nat} {cs token : List Char} {more : List (Nat × List Char)}
    (first : tokensFrom column cs = (start, token) :: more) : column ≤ start := by
  induction cs generalizing column with
  | nil => simp [tokensFrom] at first
  | cons c rest inductionHypothesis =>
    rw [tokensFrom] at first
    split at first
    case isTrue => exact Nat.le_of_succ_le (inductionHypothesis first)
    case isFalse =>
      obtain ⟨_, _, begun⟩ := exists_beginToken column c (tokensFrom (column + 1) rest)
      rw [begun] at first
      exact Nat.le_of_eq (Prod.mk.inj (List.cons.inj first).1).1

/-- White space before a text moves its tokens on. -/
theorem tokensFrom_blanks {blanks : List Char} (blank : ∀ c ∈ blanks, isBlank c = true) (column : Nat)
    (rest : List Char) : tokensFrom column (blanks ++ rest) = tokensFrom (column + blanks.length) rest := by
  induction blanks generalizing column with
  | nil => rfl
  | cons c blanks inductionHypothesis =>
    obtain ⟨here, behind⟩ := List.forall_mem_cons.mp blank
    rw [List.cons_append, tokensFrom, if_pos here, inductionHypothesis behind, List.length_cons, Nat.add_assoc,
      Nat.add_comm 1]

/-- A token is found where it begins, if white space or nothing stands behind it. The next token begins behind the
white space, so the last character of this one does not continue in it. -/
theorem tokensFrom_token {token rest : List Char} (isToken : IsToken token)
    (ends : ∀ c, rest.head? = some c → isBlank c = true) (column : Nat) :
    tokensFrom column (token ++ rest) = (column, token) :: tokensFrom (column + token.length) rest := by
  obtain ⟨filled, solid⟩ := isToken
  induction token generalizing column with
  | nil => exact absurd rfl filled
  | cons c token inductionHypothesis =>
    obtain ⟨here, behind⟩ := List.forall_mem_cons.mp solid
    have first : tokensFrom column (c :: token ++ rest) =
        beginToken column c (tokensFrom (column + 1) (token ++ rest)) := by
      rw [List.cons_append, tokensFrom, if_neg (by simp [here])]
    rw [first]
    by_cases last : token = []
    · subst last
      cases rest with
      | nil => rfl
      | cons d rest =>
        have onward : tokensFrom (column + 1) (d :: rest) = tokensFrom (column + 2) rest := by
          rw [tokensFrom, if_pos (ends d rfl)]
        rw [List.nil_append, List.length_singleton, onward]
        cases found : tokensFrom (column + 2) rest with
        | nil => rfl
        | cons next more =>
          have later : column + 2 ≤ next.1 := column_le_of_first found
          rw [beginToken, if_neg (by omega)]
    · rw [inductionHypothesis (column + 1) last behind, beginToken, if_pos rfl, List.length_cons, Nat.add_assoc,
        Nat.add_comm 1]

/-- White space behind a text makes no difference. -/
theorem tokensFrom_append_blanks {blanks : List Char} (blank : ∀ c ∈ blanks, isBlank c = true) (column : Nat)
    (cs : List Char) : tokensFrom column (cs ++ blanks) = tokensFrom column cs := by
  induction cs generalizing column with
  | nil =>
    have nothing := tokensFrom_blanks blank column []
    rwa [List.append_nil] at nothing
  | cons c rest inductionHypothesis =>
    rw [List.cons_append, tokensFrom, tokensFrom, inductionHypothesis]

/-- A text has the tokens that it has without white space at its end. -/
theorem tokens_trimEnd (cs : List Char) : tokens (trimEnd cs) = tokens cs := by
  obtain ⟨blanks, split, blank⟩ := exists_trimEnd_append cs
  have same := tokensFrom_append_blanks blank 0 (trimEnd cs)
  rw [← split] at same
  exact same.symm

/-- Two tokens with white space around them. -/
example : tokens "  ab\tc ".toList = [(2, "ab".toList), (5, "c".toList)] := by decide

end ComLayout.Text
