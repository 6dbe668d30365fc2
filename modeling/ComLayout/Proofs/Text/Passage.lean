import ComLayout.Text.LineEnds
import ComLayout.Text.Place
import Mathlib.Data.List.Forall2

/-!
# Passing over text

Every reader of places either fails or stops behind a stretch of the text that it has passed over. A
place behind a stretch is known from the place before it: the offset grows by the length of the
stretch, the line by its line feeds, and its last character stands before the new place. Each reader is
characterized here by the stretch it passes over, so that no later proof follows its recursion again.

A stretch is silent for a reader if the reader fails at each place before its end. The search for a
first success passes over silent stretches without notice.
-/

namespace ComLayout.Text

/-- Whether a property holds throughout a text is decided by going through the text. -/
instance decidableForallMem (p : Char → Prop) [DecidablePred p] (cs : List Char) :
    Decidable (∀ c ∈ cs, p c) := List.decidableBAll p cs

/-- Line feeds add up over stretches. -/
theorem lineFeeds_append (as bs : List Char) : lineFeeds (as ++ bs) = lineFeeds as + lineFeeds bs :=
  List.count_append

/-- A text is cut in one way into a stretch and what stops it, if what stops one way of cutting it stands
in no stretch of the other. -/
theorem stretch_unique {as bs r s : List Char} {c d : Char} (same : as ++ c :: r = bs ++ d :: s)
    (cOutside : c ∉ bs) (dOutside : d ∉ as) : as = bs ∧ c = d := by
  induction as generalizing bs with
  | nil =>
    cases bs with
    | nil => exact ⟨rfl, (List.cons.inj same).1⟩
    | cons b bs => exact absurd ((List.cons.inj same).1 ▸ List.mem_cons_self) cOutside
  | cons a as inductionHypothesis =>
    cases bs with
    | nil => exact absurd ((List.cons.inj same).1 ▸ List.mem_cons_self) dOutside
    | cons b bs =>
      obtain ⟨rfl, others⟩ := List.cons.inj same
      simp only [List.mem_cons, not_or] at cOutside dOutside
      obtain ⟨rfl, stop⟩ := inductionHypothesis others cOutside.2 dOutside.2
      exact ⟨rfl, stop⟩

/-- Sameness of two texts up to case is sameness character by character. -/
theorem sameWord_iff (as bs : List Char) :
    sameWord as bs = true ↔ List.Forall₂ (fun a b => sameLetter a b = true) as bs := by
  induction as generalizing bs with
  | nil => cases bs <;> simp [sameWord]
  | cons a as inductionHypothesis => cases bs <;> simp [sameWord, inductionHypothesis]

/-- Each character of a text has its counterpart in a text that is the same up to case. -/
theorem exists_of_sameWord {as bs : List Char} (same : sameWord as bs = true) {b : Char} (held : b ∈ bs) :
    ∃ a ∈ as, sameLetter a b = true := by
  rw [sameWord_iff] at same
  induction same with
  | nil => simp at held
  | @cons x y xs ys first others inductionHypothesis =>
    rcases List.mem_cons.mp held with rfl | further
    · exact ⟨x, List.mem_cons_self, first⟩
    · obtain ⟨a, member, letter⟩ := inductionHypothesis further
      exact ⟨a, List.mem_cons_of_mem x member, letter⟩

namespace Place

/-- The place behind a stretch with which the text after this place begins. -/
def past (p : Place) (cs : List Char) : Place :=
  ⟨p.offset + cs.length, p.line + lineFeeds cs, cs.getLast?.or p.before, p.rest.drop cs.length⟩

@[simp] theorem past_nil (p : Place) : p.past [] = p := by simp [past, lineFeeds]

@[simp] theorem past_offset (p : Place) (cs : List Char) :
    (p.past cs).offset = p.offset + cs.length := rfl

@[simp] theorem past_line (p : Place) (cs : List Char) :
    (p.past cs).line = p.line + lineFeeds cs := rfl

/-- Passing over two stretches is passing over both at once. -/
theorem past_append (p : Place) (as bs : List Char) : (p.past as).past bs = p.past (as ++ bs) := by
  have last : bs.getLast?.or (as.getLast?.or p.before) = (as ++ bs).getLast?.or p.before := by
    rw [List.getLast?_append, Option.or_assoc]
  simp only [past, lineFeeds_append, List.length_append, List.drop_drop, last, Nat.add_assoc]

/-- Behind a stretch stands what the text goes on with. -/
theorem past_rest (p : Place) (cs rest : List Char) (text : p.rest = cs ++ rest) :
    (p.past cs).rest = rest := by
  simp [past, text]

/-- The character before the place behind a stretch is the stretch's last. -/
theorem past_before (p : Place) (cs : List Char) (c : Char) (last : cs.getLast? = some c) :
    (p.past cs).before = some c := by
  simp [past, last]

/-- One step over a character is a stretch of length one. -/
theorem after_eq_past (p : Place) (c : Char) (rest : List Char) (text : p.rest = c :: rest) :
    p.after c rest = p.past [c] := by
  by_cases feed : c = '\n' <;> simp [after, past, text, lineFeeds, feed]

/-- A stretch may be entered by its first character. -/
theorem past_cons (p : Place) (c : Char) (cs : List Char) : (p.past [c]).past cs = p.past (c :: cs) :=
  past_append p [c] cs

/-- Skipping passes over the longest run that meets the condition. -/
theorem skip_eq_past (p : Place) (cond : Char → Bool) :
    p.skip cond = p.past (p.rest.takeWhile cond) := by
  have skipFrom_eq (rest : List Char) (p : Place) (text : p.rest = rest) :
      p.skipFrom cond rest = p.past (rest.takeWhile cond) := by
    induction rest generalizing p with
    | nil => simp [skipFrom]
    | cons c rest inductionHypothesis =>
      by_cases meets : cond c = true
      · have next : (p.past [c]).rest = rest := past_rest p [c] rest text
        rw [skipFrom, if_pos meets, after_eq_past p c rest text, inductionHypothesis _ next, past_cons,
          List.takeWhile_cons_of_pos meets]
      · rw [skipFrom, if_neg meets, List.takeWhile_cons_of_neg meets, past_nil]
  exact skipFrom_eq p.rest p rfl

/-- Where the next character does not meet the condition, nothing is skipped. -/
theorem skip_nothing (p : Place) (cond : Char → Bool) (c : Char) (rest : List Char)
    (text : p.rest = c :: rest) (stops : cond c = false) : p.skip cond = p := by
  rw [skip_eq_past, text, List.takeWhile_cons_of_neg (by simp [stops]), past_nil]

/-- Where the text goes on with a run that meets the condition and then a character that does not,
exactly that run is skipped. -/
theorem skip_run (p : Place) (cond : Char → Bool) (cs : List Char) (c : Char) (rest : List Char)
    (text : p.rest = cs ++ c :: rest) (meets : ∀ d ∈ cs, cond d = true) (stops : cond c = false) :
    p.skip cond = p.past cs := by
  rw [skip_eq_past, text, List.takeWhile_append_of_pos meets, List.takeWhile_cons_of_neg (by simp [stops]),
    List.append_nil]

/-- A run that is not empty is the longest run that meets the condition. -/
theorem run?_eq_some (p : Place) (cond : Char → Bool) (cs : List Char) (q : Place) :
    p.run? cond = some (cs, q) ↔ cs ≠ [] ∧ cs = p.rest.takeWhile cond ∧ q = p.past cs := by
  rw [run?, run, skip_eq_past]
  cases found : p.rest.takeWhile cond with
  | nil =>
    simp only [reduceCtorEq, false_iff, not_and]
    exact fun some_ same => absurd same some_
  | cons d ds =>
    simp only [Option.some.injEq, Prod.mk.injEq]
    constructor
    · rintro ⟨rfl, rfl⟩
      simp
    · rintro ⟨_, rfl, rfl⟩
      simp

/-- Where the text goes on with a run that meets the condition and then a character that does not,
exactly that run is read. -/
theorem run?_of_run (p : Place) (cond : Char → Bool) (cs : List Char) (c : Char) (rest : List Char)
    (text : p.rest = cs ++ c :: rest) (some_ : cs ≠ []) (meets : ∀ d ∈ cs, cond d = true)
    (stops : cond c = false) : p.run? cond = some (cs, p.past cs) := by
  rw [run?_eq_some]
  refine ⟨some_, ?_, rfl⟩
  rw [text, List.takeWhile_append_of_pos meets, List.takeWhile_cons_of_neg (by simp [stops]),
    List.append_nil]

/-- What passes over a spelling character by character: a stretch of the same length whose characters
stand in the relation to those of the spelling. -/
theorem spelledFrom_eq_some (same : Char → Char → Bool) (word rest : List Char) (p q : Place)
    (text : p.rest = rest) :
    spelledFrom p same word rest = some q ↔
      ∃ cs, cs <+: rest ∧ List.Forall₂ (fun a b => same a b = true) word cs ∧ q = p.past cs := by
  induction word generalizing p rest with
  | nil =>
    constructor
    · intro read
      exact ⟨[], List.nil_prefix, .nil, by simpa [spelledFrom] using read.symm⟩
    · rintro ⟨cs, _, alike, rfl⟩
      cases alike
      simp [spelledFrom]
  | cons w word inductionHypothesis =>
    cases rest with
    | nil =>
      simp only [spelledFrom, reduceCtorEq, false_iff]
      rintro ⟨cs, begins, alike, _⟩
      rw [List.prefix_nil.mp begins] at alike
      cases alike
    | cons c rest =>
      have next : (p.past [c]).rest = rest := past_rest p [c] rest text
      rw [spelledFrom, after_eq_past p c rest text]
      by_cases agrees : same w c = true
      · rw [if_pos agrees, inductionHypothesis rest _ next]
        constructor
        · rintro ⟨cs, begins, alike, rfl⟩
          exact ⟨c :: cs, List.cons_prefix_cons.mpr ⟨rfl, begins⟩, .cons agrees alike, past_cons p c cs⟩
        · rintro ⟨cs, begins, alike, rfl⟩
          cases alike with
          | cons first others =>
            obtain ⟨rfl, further⟩ := List.cons_prefix_cons.mp begins
            exact ⟨_, further, others, (past_cons p _ _).symm⟩
      · rw [if_neg agrees]
        simp only [reduceCtorEq, false_iff]
        rintro ⟨cs, begins, alike, _⟩
        cases alike with
        | cons first others =>
          obtain ⟨rfl, _⟩ := List.cons_prefix_cons.mp begins
          exact agrees first

/-- A word is read exactly where the text goes on with it. -/
theorem word?_eq_some (p : Place) (word : String) (q : Place) :
    p.word? word = some q ↔ word.toList <+: p.rest ∧ q = p.past word.toList := by
  rw [word?, spelledFrom_eq_some _ _ _ p q rfl]
  simp only [beq_iff_eq, List.forall₂_eq_eq_eq]
  constructor
  · rintro ⟨cs, begins, rfl, rfl⟩
    exact ⟨begins, rfl⟩
  · rintro ⟨begins, rfl⟩
    exact ⟨_, begins, rfl, rfl⟩

/-- Where a word stands, the place behind it is known with the text that follows. -/
theorem word?_step (p : Place) (word : String) (rest : List Char) (text : p.rest = word.toList ++ rest) :
    p.word? word = some (p.past word.toList) ∧ (p.past word.toList).rest = rest :=
  ⟨(word?_eq_some p word _).mpr ⟨⟨rest, text.symm⟩, rfl⟩, past_rest p _ rest text⟩

/-- No word is read where the text does not go on with its first character. -/
theorem word?_other (p : Place) (word : String) (w : Char) (ws : List Char) (spelled : word.toList = w :: ws)
    (other : p.rest.head? ≠ some w) : p.word? word = none := by
  rw [Option.eq_none_iff_forall_ne_some]
  intro q read
  obtain ⟨⟨rest, text⟩, _⟩ := (word?_eq_some p word q).mp read
  apply other
  rw [← text, spelled]
  rfl

/-- A name is read exactly where the text goes on with it up to case. -/
theorem name?_eq_some (p : Place) (name written : List Char) (q : Place) :
    p.name? name = some (written, q) ↔
      written <+: p.rest ∧ sameWord name written = true ∧ q = p.past written := by
  simp only [sameWord_iff, name?, Option.map_eq_some_iff, spelledFrom_eq_some _ _ _ p _ rfl, Prod.mk.injEq]
  constructor
  · rintro ⟨_, ⟨cs, begins, alike, rfl⟩, rfl, rfl⟩
    have taken : p.rest.take name.length = cs := by
      rw [alike.length_eq, List.prefix_iff_eq_take.mp begins, List.length_take]
      simp
    rw [taken]
    exact ⟨begins, alike, rfl⟩
  · rintro ⟨begins, alike, rfl⟩
    refine ⟨_, ⟨written, begins, alike, rfl⟩, ?_, rfl⟩
    rw [alike.length_eq]
    exact (List.prefix_iff_eq_take.mp begins).symm

/-- A demand passes over nothing. -/
theorem demand_eq_some (p : Place) (cond : Place → Bool) (q : Place) :
    p.demand cond = some q ↔ cond p = true ∧ q = p := by
  by_cases holds : cond p = true <;> simp [demand, holds, eq_comm]

/-- One place leads to another if the other lies behind a stretch of the text that follows the first. -/
def LeadsTo (p q : Place) : Prop := ∃ cs, cs <+: p.rest ∧ q = p.past cs

theorem leadsTo_refl (p : Place) : p.LeadsTo p := ⟨[], List.nil_prefix, (past_nil p).symm⟩

/-- Stretches may be put one behind the other. -/
theorem leadsTo_trans {p q r : Place} (first : p.LeadsTo q) (second : q.LeadsTo r) : p.LeadsTo r := by
  obtain ⟨as, ⟨rest, text⟩, rfl⟩ := first
  obtain ⟨bs, inside, rfl⟩ := second
  rw [past_rest p as rest text.symm] at inside
  refine ⟨as ++ bs, ?_, past_append p as bs⟩
  rw [← text]
  exact (List.prefix_append_right_inj as).mpr inside

/-- Of two places that one place leads to, the one that comes no later leads to the other. -/
theorem leadsTo_of_offset_le {p q r : Place} (first : p.LeadsTo q) (second : p.LeadsTo r)
    (order : q.offset ≤ r.offset) : q.LeadsTo r := by
  obtain ⟨as, inside, rfl⟩ := first
  obtain ⟨bs, further, rfl⟩ := second
  simp only [past_offset, Nat.add_le_add_iff_left] at order
  obtain ⟨cs, rfl⟩ := List.prefix_of_prefix_length_le inside further order
  obtain ⟨rest, text⟩ := further
  have ahead : p.rest = as ++ (cs ++ rest) := by rw [← text, List.append_assoc]
  refine ⟨cs, ?_, (past_append p as cs).symm⟩
  rw [past_rest p as _ ahead]
  exact List.prefix_append cs rest

/-- No place leads back to an earlier line. -/
theorem line_le_of_leadsTo {p q : Place} (leads : p.LeadsTo q) : p.line ≤ q.line := by
  obtain ⟨cs, _, rfl⟩ := leads
  exact Nat.le_add_right p.line (lineFeeds cs)

theorem skip_leadsTo (p : Place) (cond : Char → Bool) : p.LeadsTo (p.skip cond) :=
  ⟨_, List.takeWhile_prefix cond, skip_eq_past p cond⟩

theorem run?_leadsTo {p : Place} {cond : Char → Bool} {cs : List Char} {q : Place}
    (read : p.run? cond = some (cs, q)) : p.LeadsTo q := by
  obtain ⟨_, rfl, rfl⟩ := (run?_eq_some p cond cs q).mp read
  exact ⟨_, List.takeWhile_prefix cond, rfl⟩

theorem word?_leadsTo {p : Place} {word : String} {q : Place} (read : p.word? word = some q) :
    p.LeadsTo q :=
  have ⟨begins, stop⟩ := (word?_eq_some p word q).mp read
  ⟨_, begins, stop⟩

theorem demand_leadsTo {p : Place} {cond : Place → Bool} {q : Place} (read : p.demand cond = some q) :
    p.LeadsTo q :=
  ((demand_eq_some p cond q).mp read).2 ▸ leadsTo_refl p

end Place

end ComLayout.Text
