import ComLayout.Proofs.Header.ScanOutcome

/-!
# The line of a method's name

A method is reported with the line on which its occurrence ends. The name of an occurrence lies on one line,
but white space may stand between it and the parentheses that end the occurrence, and line feeds are white
space. So the reported line is that of the name and as many more as there are line feeds between the name and
the end.
-/

namespace ComLayout.Header

open Text

/-- What stands between the name of a method and the end of its occurrence. -/
inductive ClosesName : Grammar → List Char → Prop where
  | classic {before behind : List Char} (blank : Blanks before) (blankBehind : Blanks behind) :
      ClosesName .classic (before ++ [')'] ++ (behind ++ ['(']))
  | declarative {before : List Char} (blank : Blanks before) : ClosesName .declarative (before ++ [')'])

/-- The name of an occurrence stands at an offset, and a text between it and the end of the occurrence. -/
structure NamedAt (text : List Char) (grammar : Grammar) (o : MethodOccurrence) (i : Nat)
    (closing : List Char) : Prop where
  inside : o.start ≤ i
  stands : ∃ front back, text = front ++ (o.name ++ (closing ++ back)) ∧ front.length = i ∧
    (front ++ o.name ++ closing).length = o.stop
  closes : ClosesName grammar closing

section Names

variable {text : List Char} {grammar : Grammar} {o : MethodOccurrence} {i : Nat} {closing : List Char}

/-- No word character stands between a name and the end of its occurrence. -/
theorem not_mem_of_closesName (closes : ClosesName grammar closing) {c : Char} (word : isWord c = true) :
    c ∉ closing := by
  have other : isBlank c = false := isBlank_of_isWord c word
  have opens : c ≠ '(' := by
    rintro rfl
    exact absurd word (by decide)
  have shuts : c ≠ ')' := by
    rintro rfl
    exact absurd word (by decide)
  cases closes with
  | classic blank blankBehind =>
    simp [not_mem_of_blanks blank other, not_mem_of_blanks blankBehind other, opens, shuts]
  | declarative blank => simp [not_mem_of_blanks blank other, shuts]

/-- The name of an occurrence is a word. -/
theorem wordRun_of_occurs (occurs : Occurs text grammar o) : WordRun o.name := by
  have named {cs : List Char} (closed : ClosedName o.name cs) : WordRun o.name := by
    obtain ⟨-, word, -⟩ := closed
    exact word
  obtain ⟨front, cs, back, -, -, -, method⟩ := occurs
  cases grammar with
  | classic =>
    obtain ⟨-, closed, -⟩ : ClassicMethod o.name cs := method
    exact named closed
  | declarative =>
    obtain ⟨-, -, ⟨-, closed⟩⟩ := method
    exact named closed

/-- Each occurrence has its name in it. What stands before the name belongs to the occurrence, and what closes the
name follows. -/
theorem exists_namedAt (occurs : Occurs text grammar o) : ∃ i closing, NamedAt text grammar o i closing := by
  obtain ⟨front, cs, back, rfl, start, stop, method⟩ := occurs
  have named (lead : List Char) {closing : List Char} (split : cs = lead ++ (o.name ++ closing))
      (closes : ClosesName grammar closing) :
      NamedAt (front ++ (cs ++ back)) grammar o (front ++ lead).length closing := by
    subst split
    refine ⟨by simp [← start], ⟨front ++ lead, back, by simp, rfl, ?_⟩, closes⟩
    rw [← stop]
    simp
  cases grammar with
  | classic =>
    obtain @⟨beforeStar, _, behind, -, @⟨before, behindName, -, -, blankName⟩, blankBehind⟩ : ClassicMethod o.name cs :=
      method
    exact ⟨_, _, named ("STDMETHODCALLTYPE".toList ++ (beforeStar ++ ['*']) ++ before) (by simp)
      (.classic blankName blankBehind)⟩
  | declarative =>
    obtain ⟨-, -, @⟨announced, _, -, @⟨before, behindName, -, -, blankName⟩⟩⟩ := method
    exact ⟨_, _, named ("STDMETHOD".toList ++ announced ++ before) (by simp) (.declarative blankName)⟩

/-- The name of an occurrence stands at one offset only. Its last character stands in neither closing, so neither
closing is longer than the other. -/
theorem namedAt_unique {j : Nat} {other : List Char} (word : WordRun o.name)
    (first : NamedAt text grammar o i closing) (second : NamedAt text grammar o j other) :
    i = j ∧ closing = other := by
  obtain ⟨front, back, rfl, rfl, stop⟩ := first.stands
  obtain ⟨front₂, back₂, split, rfl, stop₂⟩ := second.stands
  have same : front ++ o.name ++ closing = front₂ ++ o.name ++ other := by
    have cut : front ++ o.name ++ closing ++ back = front₂ ++ o.name ++ other ++ back₂ := by simpa using split
    exact (List.append_inj cut (stop.trans stop₂.symm)).1
  obtain ⟨lead, c, ends⟩ : ∃ lead c, o.name = lead ++ [c] :=
    ⟨_, _, (List.dropLast_concat_getLast word.1).symm⟩
  have last : isWord c = true := word.2 c (by simp [ends])
  have within {front front₂ closing closing₂ : List Char}
      (same : front ++ o.name ++ closing = front₂ ++ o.name ++ closing₂) (absent : c ∉ closing₂) :
      closing₂.length ≤ closing.length := by
    have cut : (front ++ lead) ++ c :: closing = (front₂ ++ o.name) ++ closing₂ := by
      rw [← same, ends]
      simp
    obtain ⟨d, -, rfl⟩ := before_of_not_mem cut absent
    simp
  have length := Nat.le_antisymm (within same.symm (not_mem_of_closesName first.closes last))
    (within same (not_mem_of_closesName second.closes last))
  obtain ⟨names, rfl⟩ := List.append_inj' same length
  exact ⟨congrArg List.length (List.append_cancel_right names), rfl⟩

/-- The line on which an occurrence ends, counted from the line of its name. -/
theorem reported_line (word : WordRun o.name) (named : NamedAt text grammar o i closing) :
    (o.reported text).2 = 1 + lineFeeds (text.take i) + lineFeeds closing := by
  obtain ⟨front, back, rfl, rfl, stop⟩ := named.stands
  have oneLine : lineFeeds o.name = 0 := List.count_eq_zero.mpr (not_mem_of_wordRun word (by decide))
  have upToStop : (front ++ (o.name ++ (closing ++ back))).take o.stop = front ++ o.name ++ closing := by
    rw [← stop, ← List.append_assoc, ← List.append_assoc, List.take_left]
  rw [MethodOccurrence.reported, upToStop, List.take_left, lineFeeds_append, lineFeeds_append, oneLine]
  omega

end Names

/-- A scan begins no earlier than it is told to. -/
theorem le_of_scanStart {text : List Char} {start low : Nat} {grammar : Grammar} {name : String}
    (begins : ScanStart text start grammar name low) : start ≤ low := by
  cases grammar with
  | classic =>
    obtain ⟨i, first, rfl⟩ := begins
    exact Nat.le_add_right_of_le first.1
  | declarative => exact Nat.le_of_eq (Eq.symm begins)

/-- Each method is reported with the line on which its occurrence ends.

This is the line of its name and as many more as there are line feeds between the name and the end, so it is the line
of the name exactly if there is none. The offset of the name within the text is determined by the occurrence, and so
is what closes it.

The line of a report counts the line feeds in front of the end of the occurrence. An occurrence has its name in front
of a closing, which is made of brackets and white space. Were the name to stand at two offsets, one closing would be
longer than the other and hold the last character of the name, which is no character of a closing. -/
theorem scanMethods_lines (text : List Char) (start : Nat) (grammar : Grammar) (name : String) :
    ∃ listed : List MethodOccurrence,
      listed.Pairwise (fun a b => a.start < b.start ∧ a.stop ≤ b.start) ∧
      scanMethods text start grammar name = listed.map (·.reported text) ∧
      ∀ o ∈ listed, start ≤ o.start ∧ Occurs text grammar o ∧
        ∃ i closing, NamedAt text grammar o i closing ∧
          (∀ j other, NamedAt text grammar o j other → j = i ∧ other = closing) ∧
          (o.reported text).2 = 1 + lineFeeds (text.take i) + lineFeeds closing ∧
          ((o.reported text).2 = 1 + lineFeeds (text.take i) ↔ '\n' ∉ closing) := by
  have entry {o : MethodOccurrence} (occurs : Occurs text grammar o) :
      ∃ i closing, NamedAt text grammar o i closing ∧
        (∀ j other, NamedAt text grammar o j other → j = i ∧ other = closing) ∧
        (o.reported text).2 = 1 + lineFeeds (text.take i) + lineFeeds closing ∧
        ((o.reported text).2 = 1 + lineFeeds (text.take i) ↔ '\n' ∉ closing) := by
    have word := wordRun_of_occurs occurs
    obtain ⟨i, closing, named⟩ := exists_namedAt occurs
    refine ⟨i, closing, named, fun j other second => namedAt_unique word second named, reported_line word named, ?_⟩
    rw [reported_line word named, ← List.count_eq_zero, ← lineFeeds]
    omega
  by_cases begins : ∃ low, ScanStart text start grammar name low
  case pos =>
    obtain ⟨low, begins⟩ := begins
    have ends := scanLimit_limitOf text grammar name low
    generalize limitOf (endAt? grammar name) text ((places text).drop low) = limit at ends
    have lists := occurrencesBetween_lists text grammar low limit
    refine ⟨_, lists.ordered, scanMethods_eq begins ends, fun o listed => ?_⟩
    obtain ⟨occurs, late, -⟩ := (lists.exact o).mp listed
    exact ⟨(le_of_scanStart begins).trans late, occurs, entry occurs⟩
  case neg =>
    push Not at begins
    exact ⟨[], .nil, scanMethods_of_no_start begins, by simp⟩

/-- A method whose closing parenthesis stands on the line below its name. -/
def closedBelow : List Char := "STDMETHOD(Draw\n)(THIS) PURE;\n".toList

/-- The name stands on the first line, and the second one is reported. -/
theorem closedBelow_reported :
    scanMethods closedBelow 0 .declarative "IPen" = [("Draw", 2)] ∧
      ∃ o i closing, Occurs closedBelow .declarative o ∧ o.name = "Draw".toList ∧
        NamedAt closedBelow .declarative o i closing ∧ 1 + lineFeeds (closedBelow.take i) = 1 := by
  have name : ClosedName "Draw".toList "Draw\n)".toList :=
    @ClosedName.mk _ [] ['\n'] (by decide) ⟨by decide, by decide +kernel⟩ (by decide)
  refine ⟨by decide +kernel, ⟨0, 16, "Draw".toList⟩, 10, "\n)".toList, ?_, rfl, ?_, by decide⟩
  · exact ⟨[], "STDMETHOD(Draw\n)".toList, "(THIS) PURE;\n".toList, by decide, rfl, by decide, by decide, by decide,
      .mk .plain name⟩
  · exact ⟨by decide, ⟨"STDMETHOD(".toList, "(THIS) PURE;\n".toList, by decide, by decide, by decide⟩,
      @ClosesName.declarative ['\n'] (by decide)⟩

end ComLayout.Header
