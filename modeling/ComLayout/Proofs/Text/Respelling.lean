import ComLayout.Proofs.Text.Character

/-!
# Respelling a text

Two texts are respellings of one another if they differ in the case of ASCII letters alone. What is read off a
character is blind to case if it is the same for both cases of each ASCII letter: then it is the same for all
characters of respelled texts, one by one. The classes of characters are blind to case, and so is a text's lower
case, although there a letter is read with its neighbours. The other way round, a word in ASCII is the lower case of
its respellings only, unless it holds one of the two letters with a capital elsewhere.
-/

namespace ComLayout.Text

/-- What is read off a character is the same for both cases of each ASCII letter. -/
def CaseBlind {α : Type} (read : Char → α) : Prop :=
  ∀ n, n < 128 → read (Char.ofNat n).toLower = read (Char.ofNat n)

instance {α : Type} [DecidableEq α] (read : Char → α) : Decidable (CaseBlind read) :=
  inferInstanceAs (Decidable (∀ n, n < 128 → read (Char.ofNat n).toLower = read (Char.ofNat n)))

/-- Two texts differ in the case of ASCII letters alone. -/
def Respelled (as bs : List Char) : Prop := as.map Char.toLower = bs.map Char.toLower

instance (as bs : List Char) : Decidable (Respelled as bs) :=
  inferInstanceAs (Decidable (as.map Char.toLower = bs.map Char.toLower))

section Characters

variable {α : Type} {read : Char → α}

/-- No character beyond ASCII is taken for a capital ASCII letter. -/
theorem toLower_of_not_ascii (c : Char) (beyond : ¬ c.toNat < 128) : c.toLower = c := by
  have noCapital : ¬ (c.val ≥ 'A'.val ∧ c.val ≤ 'Z'.val) := by
    rintro ⟨-, atMost⟩
    have ascii : c.val.toNat ≤ 'Z'.val.toNat := UInt32.le_iff_toNat_le.mp atMost
    exact beyond (Nat.lt_of_le_of_lt ascii (by decide))
  exact dif_neg noCapital

/-- What is blind to case on ASCII is blind to it on all characters. -/
theorem CaseBlind.apply_toLower (blind : CaseBlind read) (c : Char) : read c.toLower = read c := by
  have onAscii : ∀ c : Char, c.toNat < 128 → read c.toLower = read c := forall_ascii blind
  by_cases ascii : c.toNat < 128
  · exact onAscii c ascii
  · rw [toLower_of_not_ascii c ascii]

/-- What is blind to case is the same for two cases of one letter. -/
theorem CaseBlind.eq (blind : CaseBlind read) {a b : Char} (same : a.toLower = b.toLower) : read a = read b := by
  rw [← blind.apply_toLower a, same, blind.apply_toLower b]

theorem caseBlind_lower : CaseBlind lower := by decide +kernel

theorem caseBlind_isWord : CaseBlind isWord := by decide +kernel

theorem caseBlind_isBlank : CaseBlind isBlank := by decide +kernel

/-- A character that is no ASCII letter has one case only. -/
theorem eq_of_toLower_eq {c d : Char} (same : c.toLower = d.toLower) (plain : c.isAlpha = false) : c = d := by
  have onAscii : ∀ d : Char, d.toNat < 128 → d.toLower = d ∨ d.toLower.isAlpha = true :=
    forall_ascii (by decide +kernel)
  have letter (d : Char) : d.toLower = d ∨ d.toLower.isAlpha = true := by
    by_cases ascii : d.toNat < 128
    · exact onAscii d ascii
    · exact .inl (toLower_of_not_ascii d ascii)
  have alpha : CaseBlind Char.isAlpha := by decide +kernel
  have unmoved (e : Char) (plain : e.isAlpha = false) : e.toLower = e := by
    refine (letter e).resolve_right fun small => ?_
    rw [alpha.apply_toLower e, plain] at small
    exact Bool.noConfusion small
  rw [← unmoved c plain, ← unmoved d (alpha.eq same ▸ plain), same]

end Characters

/-- Texts are respelled from their first characters on. -/
theorem respelled_cons {a b : Char} {as bs : List Char} :
    Respelled (a :: as) (b :: bs) ↔ a.toLower = b.toLower ∧ Respelled as bs := by
  simp only [Respelled, List.map_cons, List.cons.injEq]

namespace Respelled

variable {as bs : List Char}

theorem refl (cs : List Char) : Respelled cs cs := rfl

theorem symm (same : Respelled as bs) : Respelled bs as := Eq.symm same

theorem length_eq (same : Respelled as bs) : as.length = bs.length := by
  simpa using congrArg List.length same

/-- Respelled texts agree character by character in what is blind to case. -/
theorem map_eq (same : Respelled as bs) {α : Type} {read : Char → α} (blind : CaseBlind read) :
    as.map read = bs.map read := by
  have through : read = read ∘ Char.toLower := funext fun c => (blind.apply_toLower c).symm
  rw [through, ← List.map_map, ← List.map_map, same]

/-- What stands in a text respells in two parts with it. -/
theorem append_left {bs' : List Char} (same : Respelled (as ++ bs) bs') :
    ∃ cs ds, bs' = cs ++ ds ∧ Respelled as cs ∧ Respelled bs ds := by
  rw [Respelled, List.map_append, eq_comm, List.map_eq_append_iff] at same
  obtain ⟨cs, ds, rfl, first, second⟩ := same
  exact ⟨cs, ds, rfl, first.symm, second.symm⟩

/-- Texts are respelled character by character. -/
theorem iff_forall₂ : Respelled as bs ↔ List.Forall₂ (fun a b => a.toLower = b.toLower) as bs := by
  rw [Respelled, ← List.forall₂_eq_eq_eq, List.forall₂_map_left_iff, List.forall₂_map_right_iff]

/-- A text without ASCII letters has one spelling. -/
theorem eq_of_plain (same : Respelled as bs) (plain : ∀ c ∈ as, c.isAlpha = false) : as = bs := by
  rw [iff_forall₂] at same
  induction same with
  | nil => rfl
  | cons first _ inductionHypothesis =>
    rw [eq_of_toLower_eq first (plain _ List.mem_cons_self),
      inductionHypothesis fun c held => plain c (List.mem_cons_of_mem _ held)]

end Respelled

section LowerCase

/-- A character that is ignored for case is passed over. -/
theorem meetsCased_cons (c : Char) (cs : List Char) :
    meetsCased (c :: cs) = if isCaseIgnorable c = true then meetsCased cs else isCased c := by
  by_cases ignored : isCaseIgnorable c = true <;> simp [meetsCased, ignored]

/-- Respelled texts meet cased letters alike. -/
theorem meetsCased_respelled {as bs : List Char} (same : Respelled as bs) : meetsCased as = meetsCased bs := by
  have ignored : CaseBlind isCaseIgnorable := by decide +kernel
  have cased : CaseBlind isCased := by decide +kernel
  rw [Respelled.iff_forall₂] at same
  induction same with
  | nil => rfl
  | cons first _ inductionHypothesis =>
    rw [meetsCased_cons, meetsCased_cons, ignored.eq first, cased.eq first, inductionHypothesis]

/-- A letter is lowered alike where its neighbours are respelled. -/
theorem lowerInContext_respelled {before before₂ after after₂ : List Char} {c d : Char}
    (front : Respelled before before₂) (same : c.toLower = d.toLower) (back : Respelled after after₂) :
    lowerInContext before c after = lowerInContext before₂ d after₂ := by
  have sigma : CaseBlind (· == 'Σ') := by decide +kernel
  have dotted : CaseBlind (· == 'İ') := by decide +kernel
  simp only [lowerInContext, sigma.eq same, dotted.eq same, caseBlind_lower.eq same,
    meetsCased_respelled front, meetsCased_respelled back]

/-- Respelled texts have the same lower case. -/
theorem lowerText_respelled {as bs : List Char} (same : Respelled as bs) : lowerText as = lowerText bs := by
  have lowered (before before₂ as bs : List Char) (front : Respelled before before₂) (same : Respelled as bs) :
      lowerAfter before as = lowerAfter before₂ bs := by
    rw [Respelled.iff_forall₂] at same
    induction same generalizing before before₂ with
    | nil => rfl
    | @cons c d _ _ first others inductionHypothesis =>
      have further : Respelled (c :: before) (d :: before₂) := respelled_cons.mpr ⟨first, front⟩
      rw [lowerAfter, lowerAfter, lowerInContext_respelled front first (Respelled.iff_forall₂.mpr others),
        inductionHypothesis _ _ further]
  exact lowered [] [] as bs (.refl []) same

/-- Respelled names have the same lower case. -/
theorem lowerString_respelled {a b : String} (same : Respelled a.toList b.toList) :
    lowerString a = lowerString b := by
  rw [lowerString, lowerString, lowerText_respelled same]

/-- Beyond ASCII, two letters alone are lowered into it. -/
theorem ascii_lowerInContext {before after : List Char} {c d : Char} (beyond : ¬ c.toNat < 128)
    (lowered : d ∈ lowerInContext before c after) (ascii : d.toNat < 128) : d = 'i' ∨ d = 'k' := by
  have runs : ∀ run ∈ caseRuns, 128 ≤ (run.first : Int) + run.shift ∨
      run.first = run.last ∧ (Char.ofNat (run.first + run.shift).toNat = 'i' ∨
        Char.ofNat (run.first + run.shift).toNat = 'k') := by
    decide +kernel
  unfold lowerInContext at lowered
  split at lowered
  · rw [List.mem_singleton] at lowered
    have far : ¬ ('ς').toNat < 128 ∧ ¬ ('σ').toNat < 128 := by decide
    split at lowered
    · exact absurd (lowered ▸ ascii) far.1
    · exact absurd (lowered ▸ ascii) far.2
  · split at lowered
    · have far : ¬ ('\u0307').toNat < 128 := by decide
      rcases List.mem_pair.mp lowered with rfl | rfl
      · exact .inl rfl
      · exact absurd ascii far
    · obtain rfl := List.mem_singleton.mp lowered
      rcases lower_cases c beyond with own | ⟨run, listed, low, high, small⟩
      · exact absurd (own ▸ ascii) beyond
      · rcases runs run listed with further | ⟨single, letter⟩
        · omega
        · have first : run.first + run.shift = ((lower c).toNat : Int) := by omega
          rwa [first, Int.toNat_natCast, Char.ofNat_toNat] at letter

/-- A text has a word as its lower case exactly if it is spelled like it up to the case of ASCII letters, for a word
of small letters in ASCII but for the two that have a capital letter elsewhere. -/
theorem lowerText_eq_iff {word : List Char} (small : ∀ d ∈ word, d.toNat < 128 ∧ d.toLower = d ∧ d ≠ 'i' ∧ d ≠ 'k')
    (cs : List Char) : lowerText cs = word ↔ Respelled cs word := by
  constructor
  · have spelled (before cs word : List Char)
        (small : ∀ d ∈ word, d.toNat < 128 ∧ d.toLower = d ∧ d ≠ 'i' ∧ d ≠ 'k')
        (lowered : lowerAfter before cs = word) : Respelled cs word := by
      induction cs generalizing before word with
      | nil => exact lowered ▸ .refl []
      | cons c rest inductionHypothesis =>
        rw [lowerAfter] at lowered
        by_cases ascii : c.toNat < 128
        · rw [lowerInContext_ascii before rest c ascii] at lowered
          subst lowered
          obtain ⟨here, behind⟩ := List.forall_mem_cons.mp small
          exact respelled_cons.mpr ⟨here.2.1.symm, inductionHypothesis _ _ behind rfl⟩
        · have filled : lowerInContext before c rest ≠ [] := by
            unfold lowerInContext
            split
            · exact List.cons_ne_nil _ _
            · split <;> exact List.cons_ne_nil _ _
          obtain ⟨d, among⟩ := List.exists_mem_of_ne_nil _ filled
          obtain ⟨inside, -, other⟩ := small d (lowered ▸ List.mem_append_left _ among)
          exact absurd (ascii_lowerInContext ascii among inside) (by simp [other])
    exact spelled [] cs word small
  · intro same
    have own : word.map lower = word.map id :=
      List.map_congr_left fun d held => (lower_ascii d (small d held).1).trans (small d held).2.1
    rw [lowerText_respelled same, lowerText_ascii word fun d held => (small d held).1, own, List.map_id]

end LowerCase

end ComLayout.Text
