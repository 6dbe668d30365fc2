import ComLayout.Proofs.Text.Ascii
import ComLayout.Text.Blank

/-!
# White space and marks among the characters

White space stands apart from the other classes of characters: it holds no word character, and no letter is
the same as a blank up to case. So a name that begins with blanks is found only where these very blanks
stand, and a run of blanks ends where a word begins. No letter is the same as a mark of ASCII up to case either.
-/

namespace ComLayout.Text

/-- The spans of the white space characters, with their ends. -/
def blankSpans : List (Nat × Nat) :=
  [(0x9, 0xd), (0x1c, 0x20), (0x85, 0x85), (0xa0, 0xa0), (0x1680, 0x1680), (0x2000, 0x200a),
   (0x2028, 0x2029), (0x202f, 0x202f), (0x205f, 0x205f), (0x3000, 0x3000)]

/-- White space lies in one of the spans. -/
theorem exists_span_of_isBlank {c : Char} (blank : isBlank c = true) :
    ∃ span ∈ blankSpans, span.1 ≤ c.toNat ∧ c.toNat ≤ span.2 := by
  simp only [isBlank, blankBounds, within, Bool.and_eq_true, Bool.or_eq_true, decide_eq_true_eq,
    Bool.false_eq_true, or_false] at blank
  simp only [blankSpans, List.mem_cons, List.not_mem_nil, or_false, exists_eq_or_imp, exists_eq_left]
  omega

/-- What holds for each code point of the spans holds for all white space. -/
theorem forall_blank {holds : Char → Prop}
    (each : ∀ span ∈ blankSpans, ∀ n ∈ List.range' span.1 (span.2 + 1 - span.1), holds (Char.ofNat n))
    (c : Char) (blank : isBlank c = true) : holds c := by
  obtain ⟨span, listed, low, high⟩ := exists_span_of_isBlank blank
  have here : holds (Char.ofNat c.toNat) := by
    refine each span listed c.toNat ?_
    rw [List.mem_range'_1]
    omega
  rwa [Char.ofNat_toNat] at here

/-- White space is no word character. -/
theorem isWord_of_isBlank (c : Char) (blank : isBlank c = true) : isWord c = false := by
  revert c
  exact forall_blank (by decide +kernel)

/-- A word character is no white space. -/
theorem isBlank_of_isWord (c : Char) (word : isWord c = true) : isBlank c = false := by
  cases blank : isBlank c with
  | false => rfl
  | true => exact absurd (isWord_of_isBlank c blank) (by simp [word])

/-- Before a word character a boundary lies exactly where no word ends. -/
theorem isBoundary_word (before : Option Char) (c : Char) (word : isWord c = true) :
    isBoundary before (some c) = true ↔ holdsWord before = false := by
  have here : holdsWord (some c) = true := word
  rw [isBoundary, here]
  cases holdsWord before <;> decide

/-- White space is its own small letter. -/
theorem lower_of_isBlank (c : Char) (blank : isBlank c = true) : lower c = c := by
  revert c
  exact forall_blank (by decide +kernel)

/-- A character beyond ASCII is its own small letter, or it lies in a run of capitals and is as far from its small
letter as all of them. -/
theorem lower_cases (c : Char) (beyond : ¬ c.toNat < 128) :
    lower c = c ∨ ∃ run ∈ caseRuns, run.first ≤ c.toNat ∧ c.toNat ≤ run.last ∧
      ((lower c).toNat : Int) = c.toNat + run.shift := by
  have scalars : ∀ run ∈ caseRuns, 0 ≤ (run.first : Int) + run.shift ∧
      ((run.last : Int) + run.shift < 0xd800 ∨
        0xdfff < (run.first : Int) + run.shift ∧ (run.last : Int) + run.shift < 0x110000) := by
    decide +kernel
  rw [lower, if_neg beyond]
  cases found : caseRuns.find? (·.holds c.toNat) with
  | none => exact .inl rfl
  | some run =>
    have held := List.find?_some found
    simp only [CaseRun.holds, Bool.and_eq_true, decide_eq_true_eq] at held
    have listed := List.mem_of_find?_eq_some found
    obtain ⟨positive, scalar⟩ := scalars run listed
    have valid : (c.toNat + run.shift).toNat.isValidChar := by
      rcases scalar with low | ⟨low, high⟩
      · exact .inl (by omega)
      · exact .inr ⟨by omega, by omega⟩
    have small : (Char.ofNat (c.toNat + run.shift).toNat).toNat = (c.toNat + run.shift).toNat := by
      rw [Char.ofNat, dif_pos valid]
      rfl
    refine .inr ⟨run, listed, held.1.1, held.1.2, ?_⟩
    simp only [small]
    omega

/-- No capital letter has white space as its small letter: no run of capitals leads into a span of it. -/
theorem eq_of_isBlank_lower (c : Char) (blank : isBlank (lower c) = true) : lower c = c := by
  have apart : ∀ run ∈ caseRuns, ∀ span ∈ blankSpans,
      (run.last : Int) + run.shift < span.1 ∨ (span.2 : Int) < run.first + run.shift := by
    decide +kernel
  by_cases ascii : c.toNat < 128
  · have each : ∀ d : Char, d.toNat < 128 → isBlank (lower d) = true → lower d = d :=
      forall_ascii (by decide +kernel)
    exact each c ascii blank
  · refine (lower_cases c ascii).resolve_right ?_
    rintro ⟨run, listed, low, high, small⟩
    obtain ⟨span, among, above, below⟩ := exists_span_of_isBlank blank
    have beyond := apart run listed span among
    omega

/-- Only itself is the same as white space up to case. -/
theorem eq_of_sameLetter_of_isBlank {a b : Char} (same : sameLetter a b = true) (blank : isBlank b = true) :
    a = b := by
  have alone : ∀ family ∈ families, ∀ x ∈ family, isBlank x = false := by decide +kernel
  rw [sameLetter_eq_akin, lower_of_isBlank b blank] at same
  rcases Bool.or_eq_true _ _ ▸ same with equal | inFamily
  · have small : lower a = b := beq_iff_eq.mp equal
    rw [← small] at blank ⊢
    exact (eq_of_isBlank_lower a blank).symm
  · obtain ⟨family, listed, both⟩ := List.any_eq_true.mp inFamily
    have held := List.contains_iff_mem.mp (Bool.and_eq_true _ _ ▸ both).2
    rw [alone family listed b held] at blank
    exact absurd blank Bool.false_ne_true

/-- A character with a small letter in ASCII has a letter there, or it is that character itself: no run of capitals
leads to the marks. -/
theorem isAlpha_lower_of_ascii {c : Char} (ascii : (lower c).toNat < 128) :
    (lower c).isAlpha = true ∨ lower c = c := by
  have inside : ∀ c : Char, c.toNat < 128 → (lower c).isAlpha = true ∨ lower c = c :=
    forall_ascii (by decide +kernel)
  have runs : ∀ run ∈ caseRuns, 128 ≤ (run.first : Int) + run.shift ∨
      run.first = run.last ∧ (Char.ofNat (run.first + run.shift).toNat).isAlpha = true := by
    decide +kernel
  by_cases beyond : c.toNat < 128
  · exact inside c beyond
  · refine (lower_cases c beyond).symm.imp_left ?_
    rintro ⟨run, listed, low, high, small⟩
    rcases runs run listed with further | ⟨single, letter⟩
    · omega
    · have first : run.first + run.shift = ((lower c).toNat : Int) := by omega
      rwa [first, Int.toNat_natCast, Char.ofNat_toNat] at letter

/-- Only itself is the same as an ASCII mark up to case. -/
theorem eq_of_sameLetter_of_mark {a b : Char} (same : sameLetter a b = true) (ascii : b.toNat < 128)
    (mark : b.isAlpha = false) : a = b := by
  have alone : ∀ family ∈ families, ∀ x ∈ family, x.toNat < 128 → x.isAlpha = true := by decide +kernel
  have own : lower b = b := by
    refine (isAlpha_lower_of_ascii (lower_toNat_lt b ascii)).resolve_left fun letter => ?_
    have letters : ∀ c : Char, c.toNat < 128 → (lower c).isAlpha = true → c.isAlpha = true :=
      forall_ascii (by decide +kernel)
    exact absurd (letters b ascii letter) (by simp [mark])
  rw [sameLetter_eq_akin, own] at same
  rcases Bool.or_eq_true _ _ ▸ same with equal | inFamily
  · have small : lower a = b := beq_iff_eq.mp equal
    rw [← small] at ascii mark ⊢
    exact ((isAlpha_lower_of_ascii ascii).resolve_left (by simp [mark])).symm
  · obtain ⟨family, listed, both⟩ := List.any_eq_true.mp inFamily
    have held := List.contains_iff_mem.mp (Bool.and_eq_true _ _ ▸ both).2
    exact absurd (alone family listed b held ascii) (by simp [mark])

/-- A text that is the same up to case as another has no other ASCII marks. -/
theorem mem_of_sameWord {as bs : List Char} (same : sameWord as bs = true) {c : Char} (ascii : c.toNat < 128)
    (mark : c.isAlpha = false) (held : c ∈ bs) : c ∈ as := by
  obtain ⟨a, among, alike⟩ := exists_of_sameWord same held
  exact eq_of_sameLetter_of_mark alike ascii mark ▸ among

end ComLayout.Text
