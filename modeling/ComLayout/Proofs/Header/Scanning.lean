import ComLayout.Header.Methods
import ComLayout.Proofs.Text.Search

/-!
# Scanning for methods

A reader of method occurrences stops at a place to which the one where it starts leads. A scan goes
through the places of one text and continues behind each occurrence, so the lines that it reports never
decrease, whatever the reader and wherever the scan starts and ends.
-/

namespace ComLayout.Header

open Text Place

/-- Both readings of what announces a method name stop at a place ahead. -/
theorem beforeMethodName?_leadsTo {p q : Place} (read : beforeMethodName? p = some q) : p.LeadsTo q := by
  simp only [beforeMethodName?, Option.orElse_eq_orElse, Option.orElse_eq_or, Option.or_eq_some_iff,
    Option.bind_eq_bind, Option.bind_eq_some_iff] at read
  rcases read with plain | ⟨_, typed⟩
  · exact word?_leadsTo plain
  · obtain ⟨a, opened, b, admitted, comma⟩ := typed
    have ran : a.LeadsTo b := by
      obtain ⟨_, rfl⟩ := (demand_eq_some _ _ _).mp admitted
      exact skip_leadsTo a isTypeChar
    exact leadsTo_trans (word?_leadsTo opened) (leadsTo_trans ran (word?_leadsTo comma))

/-- An occurrence of the classic grammar stops at a place ahead. -/
theorem classicMethodAt?_leadsTo {p q : Place} {name : List Char}
    (read : classicMethodAt? p = some (name, q)) : p.LeadsTo q := by
  simp only [classicMethodAt?, Option.bind_eq_bind, Option.bind_eq_some_iff, Prod.exists,
    Option.some.injEq, Prod.mk.injEq] at read
  obtain ⟨a, keyword, b, star, _, c, named, d, closed, q, opened, rfl, rfl⟩ := read
  have toStar : a.LeadsTo b := leadsTo_trans (skip_leadsTo a isBlank) (word?_leadsTo star)
  have toName : b.LeadsTo c := leadsTo_trans (skip_leadsTo b isBlank) (run?_leadsTo named)
  have toClose : c.LeadsTo d := leadsTo_trans (skip_leadsTo c isBlank) (word?_leadsTo closed)
  have toOpen : d.LeadsTo q := leadsTo_trans (skip_leadsTo d isBlank) (word?_leadsTo opened)
  exact leadsTo_trans (word?_leadsTo keyword)
    (leadsTo_trans toStar (leadsTo_trans toName (leadsTo_trans toClose toOpen)))

/-- An occurrence of the declarative grammar stops at a place ahead. -/
theorem declarativeMethodAt?_leadsTo {p q : Place} {name : List Char}
    (read : declarativeMethodAt? p = some (name, q)) : p.LeadsTo q := by
  simp only [declarativeMethodAt?, Option.bind_eq_bind, Option.bind_eq_some_iff, Prod.exists,
    Option.some.injEq, Prod.mk.injEq] at read
  obtain ⟨a, bounded, b, keyword, c, announced, _, d, named, e, closed, q, ended, rfl, rfl⟩ := read
  have toName : c.LeadsTo d := leadsTo_trans (skip_leadsTo c isBlank) (run?_leadsTo named)
  have toClose : d.LeadsTo e := leadsTo_trans (skip_leadsTo d isBlank) (word?_leadsTo closed)
  have toKeyword : p.LeadsTo b := leadsTo_trans (demand_leadsTo bounded) (word?_leadsTo keyword)
  exact leadsTo_trans toKeyword (leadsTo_trans (beforeMethodName?_leadsTo announced)
    (leadsTo_trans toName (leadsTo_trans toClose (demand_leadsTo ended))))

/-- Occurrences that are collected from places of one text have lines in ascending order, none of them
before the line at which the collection starts. What one step adds is an occurrence that ends behind
where it starts, and the next may start only there. -/
theorem collect_lines_ascend (read : Place → Option (List Char × Place))
    (advances : ∀ p name q, read p = some (name, q) → p.LeadsTo q) (limit : Nat) (origin start : Place)
    (among : List Place) (startInside : origin.LeadsTo start) (inside : ∀ p ∈ among, origin.LeadsTo p) :
    (start.line :: (collect read limit start.offset among).map (·.2)).Pairwise (· ≤ ·) := by
  induction among generalizing start with
  | nil => simp [collect]
  | cons p rest inductionHypothesis =>
    have others : ∀ q ∈ rest, origin.LeadsTo q := by
      intro q member
      exact inside q (List.mem_cons_of_mem p member)
    have here : origin.LeadsTo p := inside p List.mem_cons_self
    rw [collect]
    by_cases passed : p.offset < start.offset
    · rw [if_pos passed]
      exact inductionHypothesis start startInside others
    rw [if_neg passed]
    by_cases ended : limit ≤ p.offset
    · simp [ended]
    rw [if_neg ended]
    cases found : read p with
    | none => exact inductionHypothesis start startInside others
    | some occurrence =>
      obtain ⟨name, q⟩ := occurrence
      have ahead : p.LeadsTo q := advances p name q found
      have lower : start.line ≤ q.line :=
        (line_le_of_leadsTo (leadsTo_of_offset_le startInside here (Nat.le_of_not_lt passed))).trans
          (line_le_of_leadsTo ahead)
      have further := inductionHypothesis q (leadsTo_trans here ahead) others
      simp only [List.map_cons, List.pairwise_cons, List.mem_cons, forall_eq_or_imp] at further ⊢
      exact ⟨⟨lower, fun line member => lower.trans (further.1 line member)⟩, further⟩

/-- Occurrences are reported with ascending lines. -/
theorem occurrences_lines_ascend (read : Place → Option (List Char × Place))
    (advances : ∀ p name q, read p = some (name, q) → p.LeadsTo q) (finish : Place → Option Place)
    (text : List Char) (start : Nat) :
    ((occurrences read finish text start).map (·.2)).Pairwise (· ≤ ·) := by
  rw [occurrences]
  by_cases within : start ≤ text.length
  · obtain ⟨front, back, rfl, rfl⟩ : ∃ front back, text = front ++ back ∧ front.length = start :=
      ⟨text.take start, text.drop start, (List.take_append_drop start text).symm, by simp [within]⟩
    have leads : (Place.start (front ++ back)).LeadsTo ((Place.start (front ++ back)).past front) :=
      ⟨front, List.prefix_append front back, rfl⟩
    have inside : ∀ p ∈ (places (front ++ back)).drop front.length, (Place.start (front ++ back)).LeadsTo p :=
      fun p member => (mem_onward _ p).mp (List.mem_of_mem_drop member)
    have offset : ((Place.start (front ++ back)).past front).offset = front.length := Nat.zero_add _
    have ascend := collect_lines_ascend read advances
      (limitOf finish (front ++ back) ((places (front ++ back)).drop front.length)) _ _ _ leads inside
    rw [offset] at ascend
    exact (List.pairwise_cons.mp ascend).2
  · have nothing : (places text).drop start = [] := by
      apply List.drop_eq_nil_of_le
      rw [places, onward_length]
      omega
    simp [nothing, collect]

/-- The methods of an interface are reported with ascending lines. -/
theorem scanMethods_lines_ascend (text : List Char) (start : Nat) (grammar : Grammar) (name : String) :
    ((scanMethods text start grammar name).map (·.2)).Pairwise (· ≤ ·) := by
  cases grammar with
  | declarative =>
    exact occurrences_lines_ascend _ (fun _ _ _ => declarativeMethodAt?_leadsTo) _ text start
  | classic =>
    cases struct : structStart? name text start with
    | none => simp [scanMethods, struct]
    | some inner =>
      simp only [scanMethods, struct]
      exact occurrences_lines_ascend _ (fun _ _ _ => classicMethodAt?_leadsTo) _ text inner

end ComLayout.Header
