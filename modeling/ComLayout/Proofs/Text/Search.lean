import ComLayout.Proofs.Text.Passage
import Mathlib.Data.List.Infix

/-!
# Searching a text

The places from one on are those behind the prefixes of the text that follows it. A stretch is silent
for a reader if the reader fails at each place before its end: a search passes over silent stretches
without notice, so that the first success is found by showing what lies before it to be silent.
-/

namespace ComLayout.Text

namespace Place

/-- The places from one on lie behind the prefixes of what follows it. -/
theorem onward_eq_inits (p : Place) (rest : List Char) (text : p.rest = rest) :
    p.onward rest = rest.inits.map p.past := by
  induction rest generalizing p with
  | nil => simp [onward]
  | cons c rest inductionHypothesis =>
    have next : (p.past [c]).rest = rest := past_rest p [c] rest text
    rw [onward, after_eq_past p c rest text, inductionHypothesis _ next, List.inits_cons, List.map_cons,
      List.map_map, past_nil]
    congr 2
    funext cs
    exact past_cons p c cs

/-- The places from one on are those that it leads to. -/
theorem mem_onward (p q : Place) : q ∈ p.onward p.rest ↔ p.LeadsTo q := by
  rw [onward_eq_inits p p.rest rfl, List.mem_map]
  simp only [List.mem_inits, LeadsTo, eq_comm]

/-- Leaving out as many places as a stretch has characters leaves the places behind it. -/
theorem onward_drop (p : Place) (cs rest : List Char) (text : p.rest = cs ++ rest) :
    (p.onward (cs ++ rest)).drop cs.length = (p.past cs).onward rest := by
  induction cs generalizing p with
  | nil => simp
  | cons c cs inductionHypothesis =>
    have ahead : p.rest = c :: (cs ++ rest) := text
    have next : (p.past [c]).rest = cs ++ rest := past_rest p [c] _ ahead
    rw [List.cons_append, onward, List.length_cons, List.drop_succ_cons, after_eq_past p c _ ahead,
      inductionHypothesis _ next, past_cons]

/-- The places of a text that lie no earlier than a stretch ends. -/
theorem places_drop (cs rest : List Char) :
    (places (cs ++ rest)).drop cs.length = ((Place.start (cs ++ rest)).past cs).onward rest :=
  onward_drop (Place.start (cs ++ rest)) cs rest rfl

/-- Reaching passes over each prefix of the longest run that meets the condition, the longest first. -/
theorem reach_eq_inits (p : Place) (cond : Char → Bool) :
    p.reach cond = ((p.rest.takeWhile cond).inits.map p.past).reverse := by
  have reachFrom_eq (rest : List Char) (p : Place) (nearer : List Place) (text : p.rest = rest) :
      reachFrom nearer p cond rest = ((rest.takeWhile cond).inits.map p.past).reverse ++ nearer := by
    induction rest generalizing p nearer with
    | nil => simp [reachFrom]
    | cons c rest inductionHypothesis =>
      by_cases meets : cond c = true
      · have next : (p.past [c]).rest = rest := past_rest p [c] rest text
        have entered : (p.past [c]).past = fun cs => p.past (c :: cs) := funext (past_cons p c)
        rw [reachFrom, if_pos meets, after_eq_past p c rest text, inductionHypothesis _ _ next, entered,
          List.takeWhile_cons_of_pos meets, List.inits_cons]
        simp [Function.comp_def]
      · rw [reachFrom, if_neg meets, List.takeWhile_cons_of_neg meets]
        simp
  rw [reach, reachFrom_eq p.rest p [] rfl, List.append_nil]

/-- What can be reached lies behind a run that meets the condition. -/
theorem mem_reach (p : Place) (cond : Char → Bool) (q : Place) (reached : q ∈ p.reach cond) :
    ∃ cs, cs <+: p.rest ∧ (∀ c ∈ cs, cond c = true) ∧ q = p.past cs := by
  rw [reach_eq_inits, List.mem_reverse, List.mem_map] at reached
  obtain ⟨cs, member, rfl⟩ := reached
  have inside : cs <+: p.rest.takeWhile cond := (List.mem_inits _ _).mp member
  refine ⟨cs, inside.trans (List.takeWhile_prefix cond), ?_, rfl⟩
  intro c held
  exact List.all_eq_true.mp List.all_takeWhile c (inside.subset held)

/-- Where one character meets the condition and the next does not, the place behind it is reached
first. -/
theorem reach_one (p : Place) (cond : Char → Bool) (c d : Char) (rest : List Char)
    (text : p.rest = c :: d :: rest) (meets : cond c = true) (stops : cond d = false) :
    p.reach cond = [p.past [c], p] := by
  rw [reach_eq_inits, text, List.takeWhile_cons_of_pos meets, List.takeWhile_cons_of_neg (by simp [stops])]
  simp

end Place

section Silence

variable {α : Type} {read : Place → Option α}

/-- A reader fails at each place from one on up to the end of a stretch, the end excluded. -/
def Silent (read : Place → Option α) (p : Place) (cs : List Char) : Prop :=
  ∀ as bs, cs = as ++ bs → bs ≠ [] → read (p.past as) = none

/-- An empty stretch holds no place. -/
theorem silent_nil (p : Place) : Silent read p [] := by
  intro as bs split some_
  exact absurd (List.append_eq_nil_iff.mp split.symm).2 some_

/-- A silent stretch may be extended at its front. -/
theorem silent_cons (p : Place) (c : Char) (cs : List Char) (fails : read p = none)
    (others : Silent read (p.past [c]) cs) : Silent read p (c :: cs) := by
  intro as bs split some_
  cases as with
  | nil => simpa using fails
  | cons a as =>
    obtain ⟨rfl, remainder⟩ := List.cons.inj split
    rw [← Place.past_cons]
    exact others as bs remainder some_

/-- A reader fails where a silent stretch begins, and what follows is silent. -/
theorem silent_uncons {p : Place} {c : Char} {cs : List Char} (silent : Silent read p (c :: cs)) :
    read p = none ∧ Silent read (p.past [c]) cs := by
  constructor
  · simpa using silent [] (c :: cs) rfl (by simp)
  · intro as bs split some_
    rw [Place.past_cons]
    exact silent (c :: as) bs (by rw [split, List.cons_append]) some_

/-- Two silent stretches in a row are one. -/
theorem silent_append (p : Place) (as bs : List Char) (first : Silent read p as)
    (second : Silent read (p.past as) bs) : Silent read p (as ++ bs) := by
  induction as generalizing p with
  | nil => simpa using second
  | cons a as inductionHypothesis =>
    obtain ⟨fails, others⟩ := silent_uncons first
    refine silent_cons p a (as ++ bs) fails (inductionHypothesis (p.past [a]) others ?_)
    rwa [Place.past_cons]

/-- Two silent stretches in a row are one, where the second is silent wherever it stands. -/
theorem silent_append_ahead (p : Place) (as bs rest : List Char) (text : p.rest = as ++ (bs ++ rest))
    (first : Silent read p as) (second : ∀ q : Place, q.rest = bs ++ rest → Silent read q bs) :
    Silent read p (as ++ bs) :=
  silent_append p as bs first (second _ (Place.past_rest p as _ text))

/-- What remains of a silent stretch behind a part of it is silent. -/
theorem silent_behind {p : Place} {as bs : List Char} (silent : Silent read p (as ++ bs)) :
    Silent read (p.past as) bs := by
  intro front rest split some_
  rw [Place.past_append]
  exact silent (as ++ front) rest (by rw [split, List.append_assoc]) some_

/-- A reader that looks only at what lies ahead is silent on a stretch if it fails wherever the text goes
on with an end of the stretch. -/
theorem silent_of_ahead (p : Place) (cs rest : List Char) (text : p.rest = cs ++ rest)
    (fails : ∀ (q : Place) (bs : List Char), bs ≠ [] → bs <:+ cs → q.rest = bs ++ rest → read q = none) :
    Silent read p cs := by
  intro as bs split some_
  refine fails (p.past as) bs some_ ⟨as, split.symm⟩ ?_
  exact Place.past_rest p as (bs ++ rest) (by rw [text, split, List.append_assoc])

/-- A reader that succeeds only before one character is silent on stretches without it. -/
theorem silent_of_not_mem (p : Place) (cs rest : List Char) (c : Char) (text : p.rest = cs ++ rest)
    (begins : ∀ q : Place, q.rest.head? ≠ some c → read q = none) (absent : c ∉ cs) :
    Silent read p cs := by
  apply silent_of_ahead p cs rest text
  intro q bs some_ ending ahead
  obtain ⟨b, bs, rfl⟩ := List.exists_cons_of_ne_nil some_
  apply begins
  rw [ahead, List.cons_append, List.head?_cons, Ne, Option.some.injEq]
  rintro rfl
  exact absent (ending.subset List.mem_cons_self)

/-- Stretches that are silent wherever they stand are silent one behind the other. -/
theorem silent_flatMap {β : Type} (p : Place) (xs : List β) (write : β → List Char) (rest : List Char)
    (text : p.rest = xs.flatMap write ++ rest)
    (each : ∀ x ∈ xs, ∀ (q : Place) (more : List Char), q.rest = write x ++ more → Silent read q (write x)) :
    Silent read p (xs.flatMap write) := by
  induction xs generalizing p with
  | nil => exact silent_nil p
  | cons x xs inductionHypothesis =>
    rw [List.flatMap_cons, List.append_assoc] at text
    rw [List.flatMap_cons]
    apply silent_append_ahead p _ _ rest text
    · exact each x List.mem_cons_self p _ text
    · intro q ahead
      exact inductionHypothesis q ahead fun y listed => each y (List.mem_cons_of_mem x listed)

/-- The search for a first success passes over a silent stretch. -/
theorem firstOnward_past (p : Place) (cs rest : List Char) (text : p.rest = cs ++ rest)
    (silent : Silent read p cs) :
    p.firstOnward read (cs ++ rest) = (p.past cs).firstOnward read rest := by
  induction cs generalizing p with
  | nil => simp
  | cons c cs inductionHypothesis =>
    obtain ⟨fails, others⟩ := silent_uncons silent
    have ahead : p.rest = c :: (cs ++ rest) := text
    have next : (p.past [c]).rest = cs ++ rest := Place.past_rest p [c] _ ahead
    rw [List.cons_append, Place.firstOnward, fails, Place.after_eq_past p c _ ahead]
    dsimp only
    rw [inductionHypothesis _ next others, Place.past_cons]

/-- A search ends at once where the reader succeeds. -/
theorem firstOnward_of_some (p : Place) (rest : List Char) (found : α) (succeeds : read p = some found) :
    p.firstOnward read rest = some found := by
  cases rest <;> simp [Place.firstOnward, succeeds]

/-- What a search finds is read at one of the places searched. -/
theorem exists_of_firstOnward (p : Place) (rest : List Char) (found : α) (text : p.rest = rest)
    (first : p.firstOnward read rest = some found) :
    ∃ cs, cs <+: rest ∧ read (p.past cs) = some found := by
  rw [firstOnward_eq, Place.onward_eq_inits p rest text] at first
  obtain ⟨q, member, success⟩ := List.exists_of_findSome?_eq_some first
  obtain ⟨cs, inside, rfl⟩ := List.mem_map.mp member
  exact ⟨cs, (List.mem_inits _ _).mp inside, success⟩

/-- The leftmost success lies behind a silent stretch. -/
theorem leftmost_past (p : Place) (cs rest : List Char) (found : α) (text : p.rest = cs ++ rest)
    (silent : Silent read p cs) (succeeds : read (p.past cs) = some found) :
    leftmost read (p.onward (cs ++ rest)) = some (p.past cs, found) := by
  have silentPairs : Silent (fun q => (read q).map (q, ·)) p cs := by
    intro as bs split some_
    simp [silent as bs split some_]
  have success : (read (p.past cs)).map (p.past cs, ·) = some (p.past cs, found) := by
    rw [succeeds, Option.map_some]
  rw [leftmost, ← firstOnward_eq, firstOnward_past p cs rest text silentPairs]
  exact firstOnward_of_some _ _ _ success

end Silence

end ComLayout.Text
