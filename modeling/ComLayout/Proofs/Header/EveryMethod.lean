import ComLayout.Proofs.Header.MethodGrammar
import ComLayout.Proofs.Header.ScanBounds

/-!
# Every method, once, in order

A scan lists the methods that occur between its bounds. No two occurrences overlap: both grammars begin an
occurrence with a letter that stands nowhere else in it but in the part before its closing parenthesis, and an
occurrence that began there would need a character which that part does not hold. So a search that goes on
behind each occurrence it has read misses none.
-/

namespace ComLayout.Header

open Text Place

/-- A method in a text: the offsets at which its occurrence starts and stops, and its name. -/
structure MethodOccurrence where
  start : Nat
  stop : Nat
  name : List Char
deriving DecidableEq

/-- A stretch between two parts of a text is a method of that name. -/
def MethodBetween (grammar : Grammar) (name front cs back : List Char) : Prop :=
  match grammar with
  | .classic => ClassicMethod name cs
  | .declarative => holdsWord front.getLast? = false ∧ '\n' ∈ back ∧ DeclarativeMethod name cs

/-- A method occurs in a text. -/
def Occurs (text : List Char) (grammar : Grammar) (o : MethodOccurrence) : Prop :=
  ∃ front cs back, text = front ++ (cs ++ back) ∧ front.length = o.start ∧ (front ++ cs).length = o.stop ∧
    MethodBetween grammar o.name front cs back

/-- A list holds the occurrences that start between two offsets, each once, in order and apart. -/
structure ListsOccurrences (text : List Char) (grammar : Grammar) (low limit : Nat)
    (listed : List MethodOccurrence) : Prop where
  exact : ∀ o, o ∈ listed ↔ Occurs text grammar o ∧ low ≤ o.start ∧ o.start < limit
  ordered : listed.Pairwise fun a b => a.start < b.start ∧ a.stop ≤ b.start

/-- A method is reported with the line on which its occurrence ends. -/
def MethodOccurrence.reported (text : List Char) (o : MethodOccurrence) : String × Nat :=
  (String.ofList o.name, 1 + lineFeeds (text.take o.stop))

section Apart

/-- A stretch that begins with an opening character. Where that character stands in it again, a closing one
follows, and no mark before that. -/
inductive Fenced (opening mark closing : Char) : List Char → Prop where
  | mk {lead body tail : List Char} (leads : opening ∉ lead) (unmarked : mark ∉ body)
      (ends : opening ∉ closing :: tail) :
      Fenced opening mark closing (opening :: (lead ++ (body ++ closing :: tail)))

/-- A stretch that begins with an opening character, with a mark behind it before any closing one. -/
inductive Marked (opening mark closing : Char) : List Char → Prop where
  | mk {lead tail : List Char} (marks : closing ∉ lead) :
      Marked opening mark closing (opening :: (lead ++ mark :: tail))

/-- A character that stands outside of the front of a text lies behind it. -/
theorem behind_of_not_mem {us vs front back : List Char} {c : Char} (same : us ++ c :: vs = front ++ back)
    (absent : c ∉ front) : ∃ d, us = front ++ d ∧ back = d ++ c :: vs := by
  rcases List.append_eq_append_iff.mp same with ⟨d, rfl, split⟩ | ⟨d, rfl, split⟩
  · cases d with
    | nil => exact ⟨[], by simp, split.symm⟩
    | cons e d =>
      obtain ⟨rfl, _⟩ := List.cons.inj split
      exact absurd (List.mem_append_right us List.mem_cons_self) absent
  · exact ⟨d, rfl, split⟩

/-- A character that stands outside of the back of a text lies before it. -/
theorem before_of_not_mem {us vs front back : List Char} {c : Char} (same : us ++ c :: vs = front ++ back)
    (absent : c ∉ back) : ∃ d, front = us ++ c :: d ∧ vs = d ++ back := by
  rcases List.append_eq_append_iff.mp same with ⟨d, rfl, split⟩ | ⟨d, rfl, split⟩
  · cases d with
    | nil =>
      obtain rfl : c :: vs = back := split
      exact absurd List.mem_cons_self absent
    | cons e d =>
      obtain ⟨rfl, others⟩ := List.cons.inj split
      exact ⟨d, rfl, others⟩
  · exact absurd (split ▸ List.mem_append_right d List.mem_cons_self) absent

variable {opening mark closing : Char}

/-- No marked stretch starts inside of a fenced one. It would start behind the lead and before the closing
character, where no mark stands. -/
theorem apart_of_fenced (different : mark ≠ closing) {us vs inner back rest : List Char}
    (fenced : Fenced opening mark closing (us ++ vs)) (marked : Marked opening mark closing inner)
    (same : vs ++ back = inner ++ rest) (begun : us ≠ []) (unfinished : vs ≠ []) : False := by
  obtain ⟨u, us, rfl⟩ := List.exists_cons_of_ne_nil begun
  obtain ⟨v, vs, rfl⟩ := List.exists_cons_of_ne_nil unfinished
  obtain @⟨inLead, inTail, marks⟩ := marked
  obtain ⟨rfl, inward⟩ := List.cons.inj same
  generalize whole : u :: us ++ v :: vs = outer at fenced
  obtain @⟨lead, body, tail, leads, unmarked, ends⟩ := fenced
  obtain ⟨_, split⟩ := List.cons.inj whole
  obtain ⟨d, rfl, onward⟩ := behind_of_not_mem split leads
  obtain ⟨e, rfl, rfl⟩ := before_of_not_mem onward.symm ends
  have marked : mark ∉ e := fun held => unmarked (by simp [held])
  have cut : inLead ++ mark :: (inTail ++ rest) = e ++ closing :: (tail ++ back) := by
    simpa using inward.symm
  exact different (stretch_unique cut marked marks).2

end Apart

section Collecting

variable {read : Place → Option (List Char × Place)}

/-- Occurrences that are apart are all collected: none is passed over. -/
theorem collect_eq (limit next : Nat) (among : List Place)
    (ascend : among.Pairwise (·.offset < ·.offset))
    (apart : among.Pairwise fun p r => ∀ name q, read p = some (name, q) → r.offset < q.offset → read r = none)
    (behind : ∀ p ∈ among, p.offset < next → read p = none) :
    collect read limit next among =
      (among.filter (·.offset < limit)).filterMap fun p => (read p).map fun r => (String.ofList r.1, r.2.line) := by
  induction among generalizing next with
  | nil => rfl
  | cons p rest inductionHypothesis =>
    obtain ⟨first, ascend⟩ := List.pairwise_cons.mp ascend
    obtain ⟨covered, apart⟩ := List.pairwise_cons.mp apart
    have others : ∀ r ∈ rest, r.offset < next → read r = none :=
      fun r listed => behind r (List.mem_cons_of_mem p listed)
    rw [collect]
    split
    case isTrue early =>
      have nothing := behind p List.mem_cons_self early
      rw [inductionHypothesis next ascend apart others, List.filter_cons]
      split <;> simp [nothing]
    case isFalse late =>
      split
      case isTrue beyond =>
        have noOther : rest.filter (·.offset < limit) = [] := by
          rw [List.filter_eq_nil_iff]
          intro r listed
          have further := first r listed
          simp only [decide_eq_true_eq]
          omega
        rw [List.filter_cons_of_neg (by simpa using beyond), noOther, List.filterMap_nil]
      case isFalse within =>
        rw [List.filter_cons_of_pos (by simpa using within)]
        cases found : read p with
        | none => rw [inductionHypothesis next ascend apart others, List.filterMap_cons, found, Option.map_none]
        | some r =>
          have behindIt : ∀ s ∈ rest, s.offset < r.2.offset → read s = none :=
            fun s listed before => covered s listed r.1 r.2 found before
          dsimp only
          rw [inductionHypothesis r.2.offset ascend apart behindIt, List.filterMap_cons, found, Option.map_some]

end Collecting

section Occurrences

/-- A closed name holds neither an opening parenthesis nor a star, and nothing stands behind its closing
parenthesis. -/
theorem closedName_split {name closed : List Char} (named : ClosedName name closed) :
    ∃ body, closed = body ++ [')'] ∧ ∀ c, isBlank c = false → isWord c = false → c ∉ body := by
  obtain @⟨before, behind, blank, word, blankBehind⟩ := named
  refine ⟨before ++ name ++ behind, by simp, ?_⟩
  intro c notBlank notWord
  simp only [List.mem_append, not_or]
  exact ⟨⟨not_mem_of_blanks blank notBlank, not_mem_of_wordRun word notWord⟩,
    not_mem_of_blanks blankBehind notBlank⟩

/-- A method of the classic grammar has its star between the keyword and the closing parenthesis. -/
theorem classicMethod_fenced {name cs : List Char} (method : ClassicMethod name cs) :
    Fenced 'S' '*' ')' cs ∧ Marked 'S' '*' ')' cs := by
  obtain @⟨beforeStar, _, behind, blank, named, blankBehind⟩ := method
  obtain ⟨body, rfl, without⟩ := closedName_split named
  have noOpening : 'S' ∉ beforeStar := not_mem_of_blanks blank (by decide)
  have noClosing : ')' ∉ beforeStar := not_mem_of_blanks blank (by decide)
  have noOpeningBehind : 'S' ∉ behind := not_mem_of_blanks blankBehind (by decide)
  constructor
  · have leads : 'S' ∉ "TDMETHODCALLTYPE".toList ++ (beforeStar ++ ['*']) := by simp [noOpening]
    have ends : 'S' ∉ ')' :: (behind ++ ['(']) := by simp [noOpeningBehind]
    simpa using Fenced.mk leads (without '*' (by decide) (by decide)) ends
  · have marks : ')' ∉ "TDMETHODCALLTYPE".toList ++ beforeStar := by simp [noClosing]
    simpa using Marked.mk marks

/-- A method of the declarative grammar has its only opening parenthesis before its return type. -/
theorem declarativeMethod_fenced {name cs : List Char} (method : DeclarativeMethod name cs) :
    Fenced 'S' '(' ')' cs ∧ Marked 'S' '(' ')' cs := by
  obtain ⟨announces, named⟩ := method
  obtain ⟨body, rfl, without⟩ := closedName_split named
  have unmarked := without '(' (by decide) (by decide)
  have ends : 'S' ∉ [')'] := by decide
  cases announces with
  | plain =>
    have leads : 'S' ∉ "TDMETHOD(".toList := by decide
    have marks : ')' ∉ "TDMETHOD".toList := by decide
    exact ⟨by simpa using Fenced.mk leads unmarked ends, by simpa using Marked.mk marks⟩
  | @typed type returns =>
    have leads : 'S' ∉ "TDMETHOD_(".toList := by decide
    have marks : ')' ∉ "TDMETHOD_".toList := by decide
    have inType : '(' ∉ type := by
      intro held
      have typeChar := isTypeChar_of_mem returns '(' held
      revert typeChar
      decide
    have unmarkedType : '(' ∉ type ++ (',' :: body) := by simp [inType, unmarked]
    exact ⟨by simpa using Fenced.mk leads unmarkedType ends, by simpa using Marked.mk marks⟩

/-- No occurrence starts inside of another one. -/
theorem occurrences_apart {text : List Char} {grammar : Grammar} {a b : MethodOccurrence}
    (first : Occurs text grammar a) (second : Occurs text grammar b) (order : a.start < b.start) :
    a.stop ≤ b.start := by
  obtain ⟨mark, different, bounds⟩ : ∃ mark, mark ≠ ')' ∧ ∀ name front cs back,
      MethodBetween grammar name front cs back → Fenced 'S' mark ')' cs ∧ Marked 'S' mark ')' cs := by
    cases grammar with
    | classic => exact ⟨'*', by decide, fun _ _ _ _ method => classicMethod_fenced method⟩
    | declarative => exact ⟨'(', by decide, fun _ _ _ _ method => declarativeMethod_fenced method.2.2⟩
  obtain ⟨front, cs, back, rfl, start, stop, method⟩ := first
  obtain ⟨inFront, inner, rest, same, inStart, _, inMethod⟩ := second
  by_contra overlap
  obtain ⟨us, rfl⟩ : front <+: inFront :=
    List.prefix_of_prefix_length_le ⟨_, rfl⟩ ⟨_, same.symm⟩ (by omega)
  rw [List.append_assoc, List.append_cancel_left_eq] at same
  obtain ⟨vs, rfl⟩ : us <+: cs := by
    refine List.prefix_of_prefix_length_le ⟨_, same.symm⟩ ⟨_, rfl⟩ ?_
    simp only [List.length_append] at start stop inStart
    omega
  rw [List.append_assoc, List.append_cancel_left_eq] at same
  simp only [List.length_append] at start stop inStart
  have begun : us ≠ [] := by
    rintro rfl
    simp at inStart
    omega
  have unfinished : vs ≠ [] := by
    rintro rfl
    simp at stop
    omega
  exact apart_of_fenced different (bounds _ _ _ _ method).1 (bounds _ _ _ _ inMethod).2 same begun unfinished

/-- The reader of the methods of a grammar. -/
def methodAt? (grammar : Grammar) : Place → Option (List Char × Place) :=
  match grammar with
  | .classic => classicMethodAt?
  | .declarative => declarativeMethodAt?

/-- A method is read exactly where it stands. -/
theorem methodAt?_iff (grammar : Grammar) (front back name : List Char) (q : Place) :
    methodAt? grammar (placeAt front back) = some (name, q) ↔
      ∃ cs rest, back = cs ++ rest ∧ q = placeAt (front ++ cs) rest ∧
        MethodBetween grammar name front cs rest := by
  cases grammar with
  | classic =>
    simp only [methodAt?, classicMethodAt?_iff, behind_placeAt, MethodBetween]
    constructor
    · rintro ⟨cs, method, rest, split, stop⟩
      exact ⟨cs, rest, split, stop, method⟩
    · rintro ⟨cs, rest, split, stop, method⟩
      exact ⟨cs, method, rest, split, stop⟩
  | declarative =>
    simp only [methodAt?, declarativeMethodAt?_iff, behind_placeAt, MethodBetween, placeAt_before]
    constructor
    · rintro ⟨bounded, ended, cs, method, rest, split, rfl⟩
      exact ⟨cs, rest, split, rfl, bounded, by simpa using ended, method⟩
    · rintro ⟨cs, rest, split, rfl, bounded, ended, method⟩
      exact ⟨bounded, by simpa using ended, cs, method, rest, split, rfl⟩

/-- What is read at a listed place is an occurrence, reported with the line on which it ends. -/
theorem occurs_of_methodAt? {text : List Char} {grammar : Grammar} {low : Nat} {p : Place}
    (listed : p ∈ (places text).drop low) {r : List Char × Place} (read : methodAt? grammar p = some r) :
    low ≤ p.offset ∧ Occurs text grammar ⟨p.offset, r.2.offset, r.1⟩ ∧
      (String.ofList r.1, r.2.line) = MethodOccurrence.reported text ⟨p.offset, r.2.offset, r.1⟩ := by
  obtain ⟨front, back, rfl, late, rfl⟩ := (mem_places_drop _ _ _).mp listed
  obtain ⟨cs, rest, rfl, stop, method⟩ := (methodAt?_iff grammar front back r.1 r.2).mp read
  rw [stop]
  refine ⟨by simpa using late, ⟨front, cs, rest, rfl, by simp, by simp, method⟩, ?_⟩
  have read : (front ++ (cs ++ rest)).take (front ++ cs).length = front ++ cs := by
    rw [← List.append_assoc, List.take_left]
  simp only [MethodOccurrence.reported, placeAt_line, placeAt_offset, read]

/-- An occurrence is read at a listed place. -/
theorem methodAt?_of_occurs {text : List Char} {grammar : Grammar} {low : Nat} {o : MethodOccurrence}
    (occurs : Occurs text grammar o) (late : low ≤ o.start) :
    ∃ p ∈ (places text).drop low, p.offset = o.start ∧
      ∃ q, methodAt? grammar p = some (o.name, q) ∧ q.offset = o.stop := by
  obtain ⟨front, cs, back, rfl, start, stop, method⟩ := occurs
  refine ⟨placeAt front (cs ++ back), ?_, by rw [placeAt_offset, start], placeAt (front ++ cs) back, ?_, ?_⟩
  · exact (mem_places_drop _ _ _).mpr ⟨front, cs ++ back, rfl, by omega, rfl⟩
  · exact (methodAt?_iff _ _ _ _ _).mpr ⟨cs, back, rfl, rfl, method⟩
  · rw [placeAt_offset, stop]

end Occurrences

section Scan

/-- The occurrences that are read at the places between two offsets. -/
def occurrencesBetween (text : List Char) (grammar : Grammar) (low limit : Nat) : List MethodOccurrence :=
  (((places text).drop low).filter (·.offset < limit)).filterMap fun p =>
    (methodAt? grammar p).map fun r => ⟨p.offset, r.2.offset, r.1⟩

/-- Reading at each place finds every occurrence once, in order and apart. -/
theorem occurrencesBetween_lists (text : List Char) (grammar : Grammar) (low limit : Nat) :
    ListsOccurrences text grammar low limit (occurrencesBetween text grammar low limit) := by
  constructor
  case exact =>
    intro o
    simp only [occurrencesBetween, List.mem_filterMap, List.mem_filter, decide_eq_true_eq,
      Option.map_eq_some_iff]
    constructor
    · rintro ⟨p, ⟨listed, before⟩, r, read, rfl⟩
      obtain ⟨late, occurs, _⟩ := occurs_of_methodAt? listed read
      exact ⟨occurs, late, before⟩
    · rintro ⟨occurs, late, before⟩
      obtain ⟨p, listed, start, q, read, stop⟩ := methodAt?_of_occurs occurs late
      exact ⟨p, ⟨listed, by omega⟩, _, read, by rw [start, stop]⟩
  case ordered =>
    rw [occurrencesBetween, List.pairwise_filterMap]
    refine ((places_ascend text low).filter _).imp_of_mem ?_
    intro p r first second order a read b readNext
    obtain ⟨x, inFirst, rfl⟩ := Option.map_eq_some_iff.mp read
    obtain ⟨y, inSecond, rfl⟩ := Option.map_eq_some_iff.mp readNext
    have outer := (occurs_of_methodAt? (List.mem_filter.mp first).1 inFirst).2.1
    have inner := (occurs_of_methodAt? (List.mem_filter.mp second).1 inSecond).2.1
    exact ⟨order, occurrences_apart outer inner order⟩

/-- The search that goes on behind each occurrence collects the same as reading at each place. -/
theorem collect_occurrencesBetween (text : List Char) (grammar : Grammar) (low limit : Nat) :
    collect (methodAt? grammar) limit low ((places text).drop low) =
      (occurrencesBetween text grammar low limit).map (·.reported text) := by
  have ascend := places_ascend text low
  have apart : ((places text).drop low).Pairwise fun p r => ∀ name q,
      methodAt? grammar p = some (name, q) → r.offset < q.offset → methodAt? grammar r = none := by
    refine ascend.imp_of_mem fun {p r} first second order name q read overlap => ?_
    rw [Option.eq_none_iff_forall_ne_some]
    intro s inside
    have outer := (occurs_of_methodAt? first read).2.1
    have inner := (occurs_of_methodAt? second inside).2.1
    exact Nat.not_le_of_lt overlap (occurrences_apart outer inner order)
  have early : ∀ p ∈ (places text).drop low, p.offset < low → methodAt? grammar p = none := by
    intro p listed before
    obtain ⟨front, back, _, late, rfl⟩ := (mem_places_drop _ _ _).mp listed
    rw [placeAt_offset] at before
    exact absurd late (Nat.not_le_of_lt before)
  rw [collect_eq limit low _ ascend apart early, occurrencesBetween, List.map_filterMap]
  refine List.filterMap_congr fun p among => ?_
  cases read : methodAt? grammar p with
  | none => rfl
  | some r =>
    have line := (occurs_of_methodAt? (List.mem_filter.mp among).1 read).2.2
    simp only [Option.map_some, line]

/-- A scan reports every method that occurs between its bounds, once, in the order of the text, and nothing else.

The lower bound is where the scan is started, or, for a generated interface, the name of its struct; where that has no
struct from the given offset on, nothing is reported. The upper bound is the first terminator from there on, or the
end of the text if there is none.

The scan goes on behind the end of each occurrence that it reports, so what starts within an occurrence would be
missed. But none starts there. An occurrence begins with a character behind which a mark stands before any closing
one; where that character stands in an occurrence again, a closing one follows, and no mark before that. What is
reported is therefore all that occurs. -/
theorem scanMethods_reports_every_method (text : List Char) (start : Nat) (grammar : Grammar) (name : String) :
    (∀ low, ¬ ScanStart text start grammar name low) ∧ scanMethods text start grammar name = [] ∨
      ∃ low limit listed, ScanStart text start grammar name low ∧ ScanLimit text grammar name low limit ∧
        ListsOccurrences text grammar low limit listed ∧
        scanMethods text start grammar name = listed.map (·.reported text) := by
  have bounded (low : Nat) : ∃ limit listed, ScanLimit text grammar name low limit ∧
      ListsOccurrences text grammar low limit listed ∧
      occurrences (methodAt? grammar) (endAt? grammar name) text low = listed.map (·.reported text) :=
    ⟨_, _, scanLimit_limitOf text grammar name low, occurrencesBetween_lists text grammar low _,
      collect_occurrencesBetween text grammar low _⟩
  cases grammar with
  | classic =>
    rw [scanMethods]
    cases found : structStart? name text start with
    | none => exact .inl ⟨not_scanStart_of_structStart? found, rfl⟩
    | some low =>
      obtain ⟨limit, listed, rest⟩ := bounded low
      exact .inr ⟨low, limit, listed, scanStart_of_structStart? found, rest⟩
  | declarative =>
    obtain ⟨limit, listed, rest⟩ := bounded start
    exact .inr ⟨start, limit, listed, rfl, rest⟩

end Scan

end ComLayout.Header
