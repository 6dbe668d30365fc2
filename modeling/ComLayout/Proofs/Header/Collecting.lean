import ComLayout.Proofs.Header.ReadingBack
import ComLayout.Proofs.Text.Trim

/-!
# Collecting the methods of a written interface

Behind a written declaration the scan for methods finds those of the interface and no others. The line that
closes the body ends it: no line before it begins like one, whatever the return types hold. Between two
methods nothing reads as a method, because every method begins with a letter that nothing else there holds.
-/

namespace ComLayout.Header

open Text Place

section Methods

/-- A return type is read as one. -/
theorem ReturnType.isReturnType (type : ReturnType) : isReturnType type.text = true := by
  have noFeed : '\n' ∉ type.text := by
    intro held
    exact (type.chars '\n' held).2.1 rfl
  unfold Header.isReturnType
  split
  · obtain ⟨c, held, _⟩ := type.visible
    refine List.any_eq_true.mpr ⟨c, held, ?_⟩
    simp only [bne_iff_ne, ne_eq]
    rintro rfl
    exact noFeed held
  · have notInTrimmed : '\n' ∉ trim type.text := fun held => noFeed (mem_of_mem_trim held)
    simpa using notInTrimmed

/-- What announces a method is read up to its name. -/
theorem beforeMethodName?_written (p : Place) (m : MethodSource) (c : Char) (rest : List Char)
    (text : p.rest = m.announcement ++ c :: rest) (visible : isBlank c = false) :
    ∃ q, beforeMethodName? p = some q ∧ q.skip isBlank = p.past m.announcement := by
  unfold MethodSource.announcement at text ⊢
  cases returns : m.returns with
  | none =>
    simp only [returns] at text ⊢
    obtain ⟨opened, afterOpened⟩ := word?_step p "(" (c :: rest) text
    refine ⟨p.past ['('], ?_, skip_nothing _ isBlank c rest afterOpened visible⟩
    rw [beforeMethodName?, opened]
    rfl
  | some type =>
    simp only [returns] at text ⊢
    have notOpened := word?_other p "(" '(' [] rfl (by rw [text]; simp)
    have ahead : p.rest = "_(".toList ++ (type.text ++ ',' :: ([' '] ++ c :: rest)) := by
      simpa using text
    obtain ⟨opened, afterOpened⟩ := word?_step p "_(" _ ahead
    have typeChars : ∀ d ∈ type.text, isTypeChar d = true := by
      intro d held
      exact (type.chars d held).2.2.2
    have skipped := skip_run _ isTypeChar type.text ',' _ afterOpened typeChars (by decide)
    have taken : (p.past "_(".toList).rest.takeWhile isTypeChar = type.text := by
      rw [afterOpened, List.takeWhile_append_of_pos typeChars, List.takeWhile_cons_of_neg (by decide),
        List.append_nil]
    have afterType := past_rest _ _ _ afterOpened
    obtain ⟨comma, afterComma⟩ := word?_step _ "," _ afterType
    refine ⟨((p.past "_(".toList).past type.text).past ",".toList, ?_, ?_⟩
    · rw [beforeMethodName?, notOpened]
      simp only [opened, run, taken, skipped, type.isReturnType, demand, comma, if_true,
        Option.bind_eq_bind, Option.bind_some]
      rfl
    · rw [skip_run _ isBlank [' '] c rest afterComma (by decide) visible]
      simp only [past_append]
      congr 1
      simp

/-- A method is read where it is written. -/
theorem declarativeMethodAt?_written (p : Place) (m : MethodSource) (rest : List Char)
    (text : p.rest = m.occurrence ++ rest) (bounded : holdsWord p.before = false) (ended : '\n' ∈ rest) :
    declarativeMethodAt? p = some (m.name.text.toList, p.past m.occurrence) := by
  obtain ⟨c, cs, nameSplit, cNamed⟩ := m.name.head
  obtain ⟨_, visible, _, _⟩ := nameChar_class cNamed
  have ahead : p.rest = "STDMETHOD".toList ++ (m.announcement ++ (m.name.text.toList ++ ')' :: rest)) := by
    simp only [text, MethodSource.occurrence, List.append_assoc, List.cons_append, List.nil_append]
    rfl
  have boundary : p.isBoundary = true := isBoundary_before p 'S' _ ahead bounded (by decide)
  obtain ⟨keyword, afterKeyword⟩ := word?_step p "STDMETHOD" _ ahead
  have named : (p.past "STDMETHOD".toList).rest = m.announcement ++ c :: (cs ++ ')' :: rest) := by
    rw [afterKeyword, nameSplit, List.cons_append]
  obtain ⟨q, announced, skipped⟩ := beforeMethodName?_written _ m c _ named visible
  have afterAnnounced := past_rest _ _ _ afterKeyword
  have wordChars : ∀ d ∈ m.name.text.toList, isWord d = true := by
    intro d held
    exact (nameChar_class (m.name.chars d held)).1
  have name := run?_of_run _ isWord m.name.text.toList ')' rest afterAnnounced m.name.some_ wordChars
    (by decide)
  have afterName := past_rest _ _ _ afterAnnounced
  have blank := skip_nothing _ isBlank ')' rest afterName (by decide)
  obtain ⟨closed, afterClosed⟩ := word?_step _ ")" rest afterName
  have lineEnd : ((((p.past "STDMETHOD".toList).past m.announcement).past m.name.text.toList).past
      ")".toList).hasLineEnd = true := by
    rw [hasLineEnd, afterClosed]
    simpa using ended
  simp only [declarativeMethodAt?, demand, boundary, if_true, keyword, announced, skipped, name, blank,
    closed, lineEnd, Option.bind_eq_bind, Option.bind_some]
  simp only [past_append, MethodSource.occurrence, List.append_assoc]
  rfl

/-- A method begins with its first letter and nothing else. -/
theorem declarativeMethodAt?_other (p : Place) (other : p.rest.head? ≠ some 'S') :
    declarativeMethodAt? p = none := by
  have unread := word?_other p "STDMETHOD" 'S' _ rfl other
  by_cases boundary : p.isBoundary = true
  · simp only [declarativeMethodAt?, demand, if_pos boundary, unread, Option.bind_eq_bind, Option.bind_some,
      Option.bind_none]
  · simp only [declarativeMethodAt?, demand, if_neg boundary, Option.bind_eq_bind, Option.bind_none]

end Methods

section Endings

/-- Within a line no body ends. -/
theorem declarativeEndAt?_inside (name : List Char) (p : Place) (c : Char) (before : p.before = some c)
    (inside : c ≠ '\n') : declarativeEndAt? name p = none := by
  have notStart : p.isLineStart = false := by simp [isLineStart, before, inside]
  simp only [declarativeEndAt?, demand, notStart, Bool.false_eq_true, if_false, Option.bind_eq_bind,
    Option.bind_none]

/-- Where a line begins with something else than a brace, no body ends. -/
theorem declarativeEndAt?_other (name : List Char) (p : Place) (gaps : List Char) (c : Char)
    (rest : List Char) (text : p.rest = gaps ++ c :: rest) (blank : ∀ d ∈ gaps, isGap d = true)
    (visible : isGap c = false) (other : c ≠ '\x7d') : declarativeEndAt? name p = none := by
  have skipped := skip_run p isGap gaps c rest text blank visible
  have afterGaps := past_rest p _ _ text
  have unread : (p.past gaps).word? "\x7d" = none := by
    refine word?_other _ "\x7d" '\x7d' [] rfl ?_
    rw [afterGaps]
    simpa using other
  by_cases lineStart : p.isLineStart = true
  · simp only [declarativeEndAt?, demand, if_pos lineStart, skipped, unread, Option.bind_eq_bind,
      Option.bind_some, Option.bind_none]
  · simp only [declarativeEndAt?, demand, if_neg lineStart, Option.bind_eq_bind, Option.bind_none]

/-- A line is silent if no body ends where it begins. -/
theorem silent_line (name : List Char) (p : Place) (cs : List Char) (line : OneLine cs)
    (begins : declarativeEndAt? name p = none) : Silent (declarativeEndAt? name) p (cs ++ ['\n']) := by
  intro as bs split some_
  rcases List.eq_nil_or_concat as with rfl | ⟨front, last, rfl⟩
  · rw [past_nil]
    exact begins
  · rw [List.concat_eq_append] at split ⊢
    have inside : last ∈ cs := by
      rcases List.eq_nil_or_concat bs with rfl | ⟨back, feed, rfl⟩
      · exact absurd rfl some_
      · rw [List.concat_eq_append, ← List.append_assoc] at split
        have same := (List.append_inj' split rfl).1
        simp [same]
    exact declarativeEndAt?_inside name _ last (past_before p _ last List.getLast?_concat) (line last inside).2

/-- No body ends within the lines of a method. Neither of them begins like one that ends a body. -/
theorem silent_end_method (name : List Char) (p : Place) (m : MethodSource) (rest : List Char)
    (text : p.rest = m.text ++ rest) : Silent (declarativeEndAt? name) p m.text := by
  obtain ⟨ended, parametersCut, line⟩ : ∃ ended, parameters = '(' :: '\n' :: ("        ".toList ++ ')' ::
      (ended ++ ['\n'])) ∧ OneLine ("        ".toList ++ ')' :: ended) := by
    exact ⟨" PURE;".toList, by decide, by decide⟩
  have pieces : m.text = (indentation ++ m.occurrence ++ ['('] ++ ['\n']) ++
      ("        ".toList ++ ')' :: ended ++ ['\n']) := by
    simp [MethodSource.text, parametersCut]
  have firstLine : OneLine (indentation ++ m.occurrence ++ ['(']) := by
    have indented : OneLine indentation := by decide
    have opened : OneLine ['('] := by decide
    exact oneLine_append (oneLine_append indented m.occurrence_oneLine) opened
  rw [pieces] at text ⊢
  rw [List.append_assoc] at text
  apply silent_append_ahead p _ _ rest text
  · apply silent_line name p _ firstLine
    have ahead : ∃ more, p.rest = indentation ++ 'S' :: more := by
      have wordCut : methodWord = 'S' :: "TDMETHOD".toList := by decide
      rw [text, MethodSource.occurrence, wordCut]
      simp only [List.append_assoc, List.cons_append]
      exact ⟨_, rfl⟩
    obtain ⟨more, ahead⟩ := ahead
    exact declarativeEndAt?_other name p indentation 'S' more ahead (by decide) (by decide) (by decide)
  · intro q ahead
    apply silent_line name q _ line
    refine declarativeEndAt?_other name q "        ".toList ')' (ended ++ ['\n'] ++ rest) ?_ (by decide)
      (by decide) (by decide)
    rw [ahead]
    simp only [List.append_assoc, List.cons_append]

/-- No body ends within the lines of some methods. -/
theorem silent_end_methods (name : List Char) (p : Place) (methods : List MethodSource) (rest : List Char)
    (text : p.rest = methods.flatMap MethodSource.text ++ rest) :
    Silent (declarativeEndAt? name) p (methods.flatMap MethodSource.text) :=
  silent_flatMap p methods _ rest text fun m _ q more ahead => silent_end_method name q m more ahead

/-- No body ends before the line that closes it. -/
theorem silent_end_body (name : List Char) (p : Place) (d : InterfaceSource) (rest : List Char)
    (text : p.rest = d.body ++ rest) (inside : ∃ c, p.before = some c ∧ c ≠ '\n') :
    Silent (declarativeEndAt? name) p d.body := by
  obtain ⟨last, before, notFeed⟩ := inside
  have openingCut : opening = [] ++ ['\n'] ++ (['\x7b'] ++ ['\n']) := by decide
  rw [InterfaceSource.body, openingCut, List.append_assoc] at text ⊢
  rw [List.append_assoc] at text
  have emptyLine : OneLine [] := by decide
  have braceLine : OneLine ['\x7b'] := by decide
  apply silent_append_ahead p _ _ rest (by simpa using text)
  · exact silent_line name p [] emptyLine (declarativeEndAt?_inside name p last before notFeed)
  intro q afterEmpty
  rw [List.append_assoc] at afterEmpty
  apply silent_append_ahead q _ _ rest afterEmpty
  · apply silent_line name q ['\x7b'] braceLine
    exact declarativeEndAt?_other name q [] '\x7b' _ afterEmpty (by simp) (by decide) (by decide)
  · intro r afterBrace
    exact silent_end_methods name r d.methods rest afterBrace

/-- A body ends at the line that closes it. -/
theorem declarativeEndAt?_written (p : Place) (d : InterfaceSource) (rest : List Char)
    (text : p.rest = d.ending ++ '\n' :: rest) (lineStart : p.before = some '\n') :
    ∃ q, declarativeEndAt? d.name.text.toList p = some q := by
  have ahead : p.rest = '\x7d' :: ';' :: ([' '] ++ '/' :: ('/' :: ([' '] ++ 'i' :: ("nterface".toList ++
      (' ' :: (d.name.text.toList ++ '\n' :: rest)))))) := by
    have closingCut : closing = '\x7d' :: ';' :: ([' '] ++ '/' :: ('/' :: ([' '] ++ 'i' ::
        ("nterface".toList ++ [' '])))) := by decide
    simp only [text, InterfaceSource.ending, closingCut, List.append_assoc, List.cons_append,
      List.nil_append]
  obtain ⟨c, cs, nameSplit, cNamed⟩ := d.name.head
  have started : p.isLineStart = true := by simp [isLineStart, lineStart]
  have noGap := skip_nothing p isGap _ _ ahead (by decide)
  obtain ⟨brace, afterBrace⟩ := word?_step p "\x7d" _ ahead
  have noGap₂ := skip_nothing _ isGap _ _ afterBrace (by decide)
  obtain ⟨semicolon, afterSemicolon⟩ := word?_step _ ";" _ afterBrace
  have gap := skip_run _ isGap [' '] '/' _ afterSemicolon (by decide) (by decide)
  have afterGap := past_rest _ [' '] _ afterSemicolon
  obtain ⟨slashes, afterSlashes⟩ := word?_step _ "//" _ afterGap
  have gap₂ := skip_run _ isGap [' '] 'i' _ afterSlashes (by decide) (by decide)
  have afterGap₂ := past_rest _ [' '] _ afterSlashes
  obtain ⟨keyword, afterKeyword⟩ := word?_step _ "interface" _ afterGap₂
  have cGap : isGap c = false := by
    cases gap : isGap c with
    | false => rfl
    | true => exact absurd (isBlank_of_isGap c gap) (by simp [(nameChar_class cNamed).2.1])
  simp only [declarativeEndAt?, demand, started, if_true, noGap, brace, noGap₂, semicolon, gap, slashes,
    gap₂, keyword, Option.bind_eq_bind, Option.bind_some]
  generalize (((((p.past "\x7d".toList).past ";".toList).past [' ']).past "//".toList).past [' ']).past
    "interface".toList = k at afterKeyword
  have reached : k.reach isGap = [k.past [' '], k] := by
    refine reach_one k isGap ' ' c (cs ++ '\n' :: rest) ?_ (by decide) cGap
    rw [afterKeyword, nameSplit]
    rfl
  have beyond : (k.reach isGap).filter (k.offset < ·.offset) = [k.past [' ']] := by
    simp [reached]
  have afterBlank := past_rest k [' '] _ afterKeyword
  have named := wholeName?_written d.name d.name _ '\n' rest afterBlank (by decide) (by decide)
  rw [if_pos rfl] at named
  rw [beyond, List.findSome?_cons, named]
  exact ⟨_, rfl⟩

end Endings

section Collection

variable {read : Place → Option (List Char × Place)} {limit next : Nat}

/-- Places before the least admissible offset are passed over. -/
theorem collect_passed (p : Place) (cs rest : List Char) (text : p.rest = cs ++ rest)
    (passed : p.offset + cs.length ≤ next) :
    collect read limit next (p.onward (cs ++ rest)) = collect read limit next ((p.past cs).onward rest) := by
  induction cs generalizing p with
  | nil => simp
  | cons c cs inductionHypothesis =>
    have ahead : p.rest = c :: (cs ++ rest) := text
    have before : p.offset < next := by
      rw [List.length_cons] at passed
      omega
    have further : (p.past [c]).offset + cs.length ≤ next := by
      rw [List.length_cons] at passed
      rw [past_offset, List.length_singleton]
      omega
    rw [List.cons_append, onward, collect, if_pos before, after_eq_past p c _ ahead,
      inductionHypothesis (p.past [c]) (past_rest p [c] _ ahead) further, past_cons]

/-- Silent places before the limit are passed over. -/
theorem collect_silent (p : Place) (cs rest : List Char) (text : p.rest = cs ++ rest)
    (silent : Silent read p cs) (within : p.offset + cs.length ≤ limit) :
    collect read limit next (p.onward (cs ++ rest)) = collect read limit next ((p.past cs).onward rest) := by
  induction cs generalizing p with
  | nil => simp
  | cons c cs inductionHypothesis =>
    have ahead : p.rest = c :: (cs ++ rest) := text
    rw [List.length_cons] at within
    have notEnded : ¬ limit ≤ p.offset := by omega
    have further : (p.past [c]).offset + cs.length ≤ limit := by
      rw [past_offset, List.length_singleton]
      omega
    obtain ⟨fails, others⟩ := silent_uncons silent
    have rest_ := inductionHypothesis (p.past [c]) (past_rest p [c] _ ahead) others further
    rw [past_cons] at rest_
    rw [List.cons_append, onward, collect, if_neg notEnded, fails, after_eq_past p c _ ahead, rest_, ite_self]

/-- An occurrence is reported, and the collection goes on behind it. -/
theorem collect_occurrence (p : Place) (cs rest name : List Char) (text : p.rest = cs ++ rest)
    (found : read p = some (name, p.past cs)) (some_ : cs ≠ []) (admitted : next ≤ p.offset)
    (within : p.offset < limit) :
    collect read limit next (p.onward (cs ++ rest)) = (String.ofList name, (p.past cs).line) ::
      collect read limit (p.past cs).offset ((p.past cs).onward rest) := by
  obtain ⟨c, cs, rfl⟩ := List.exists_cons_of_ne_nil some_
  have ahead : p.rest = c :: (cs ++ rest) := text
  have notPassed : ¬ p.offset < next := by omega
  have notEnded : ¬ limit ≤ p.offset := by omega
  have inside : (p.past [c]).offset + cs.length ≤ (p.past (c :: cs)).offset := by
    simp only [past_offset, List.length_cons, List.length_nil]
    omega
  have others : collect read limit (p.past (c :: cs)).offset ((p.past [c]).onward (cs ++ rest)) = _ :=
    collect_passed (p.past [c]) cs rest (past_rest p [c] _ ahead) inside
  rw [past_cons] at others
  rw [List.cons_append, onward, collect, if_neg notPassed, if_neg notEnded, found,
    after_eq_past p c _ ahead]
  simp only [others]

/-- Nothing is collected from the limit on. -/
theorem collect_ended (p : Place) (rest : List Char) (text : p.rest = rest) (admitted : next ≤ p.offset)
    (ended : limit ≤ p.offset) : collect read limit next (p.onward rest) = [] := by
  have notPassed : ¬ p.offset < next := by omega
  cases rest with
  | nil => rw [onward, collect, if_neg notPassed, if_pos ended]
  | cons c rest => rw [onward, collect, if_neg notPassed, if_pos ended]

/-- Texts that are each collected with the line on which they begin are so one behind the other, if all have
the same number of lines. The induction is on the texts. -/
theorem collect_flatMap {β : Type} (write : β → List Char) (label : β → String) (height : Nat)
    (heights : ∀ x, lineFeeds (write x) = height)
    (each : ∀ x (q : Place) (more : List Char) (next : Nat), q.rest = write x ++ more → next ≤ q.offset →
      q.offset + (write x).length ≤ limit → ∃ further, further ≤ (q.past (write x)).offset ∧
        collect read limit next (q.onward (write x ++ more)) =
          (label x, q.line) :: collect read limit further ((q.past (write x)).onward more))
    (q : Place) (xs : List β) (rest : List Char) (text : q.rest = xs.flatMap write ++ rest)
    (admitted : next ≤ q.offset) (within : q.offset + (xs.flatMap write).length ≤ limit) :
    ∃ further, further ≤ (q.past (xs.flatMap write)).offset ∧
      collect read limit next (q.onward (xs.flatMap write ++ rest)) =
        (xs.mapIdx fun i x => (label x, q.line + height * i)) ++
          collect read limit further ((q.past (xs.flatMap write)).onward rest) := by
  induction xs generalizing q next with
  | nil => exact ⟨next, by simpa using admitted, by simp⟩
  | cons x xs inductionHypothesis =>
    rw [List.flatMap_cons, List.append_assoc] at text
    rw [List.flatMap_cons, List.length_append, ← Nat.add_assoc] at within
    obtain ⟨further, admittedBehind, collected⟩ :=
      each x q _ next text admitted (Nat.le_trans (Nat.le_add_right _ _) within)
    have ahead := past_rest q _ _ text
    obtain ⟨last, admittedLast, others⟩ := inductionHypothesis _ ahead admittedBehind within
    have line : (q.past (write x)).line = q.line + height := by
      rw [past_line, heights]
    have lines : (fun i (x : β) => (label x, q.line + height + height * i)) =
        fun i x => (label x, q.line + height * (i + 1)) := by
      funext i x
      rw [Nat.mul_add, Nat.mul_one, Nat.add_assoc, Nat.add_comm height (height * i)]
    refine ⟨last, ?_, ?_⟩
    · rw [List.flatMap_cons, ← past_append]
      exact admittedLast
    · rw [List.flatMap_cons, List.append_assoc, collected, others, line, lines, List.mapIdx_cons, past_append]
      rfl

/-- An occurrence is collected with the line on which its text begins, if it stands on that line and the text
is silent before and behind it. -/
theorem collect_enclosed (q : Place) (lead cs tail rest name : List Char)
    (text : q.rest = (lead ++ (cs ++ tail)) ++ rest) (before : Silent read q lead)
    (found : read (q.past lead) = some (name, (q.past lead).past cs))
    (behind : Silent read ((q.past lead).past cs) tail) (some_ : cs ≠ []) (line : lineFeeds (lead ++ cs) = 0)
    (admitted : next ≤ q.offset) (within : q.offset + (lead ++ (cs ++ tail)).length ≤ limit) :
    ∃ further, further ≤ (q.past (lead ++ (cs ++ tail))).offset ∧
      collect read limit next (q.onward ((lead ++ (cs ++ tail)) ++ rest)) = (String.ofList name, q.line) ::
        collect read limit further ((q.past (lead ++ (cs ++ tail))).onward rest) := by
  have positive : 0 < cs.length := List.length_pos_of_ne_nil some_
  simp only [List.length_append] at within
  rw [List.append_assoc, List.append_assoc] at text ⊢
  have afterLead := past_rest q _ _ text
  have afterFound := past_rest _ _ _ afterLead
  have sameLine : ((q.past lead).past cs).line = q.line := by
    rw [past_append, past_line, line]
    rfl
  have stages : q.past (lead ++ (cs ++ tail)) = ((q.past lead).past cs).past tail := by
    rw [past_append, past_append]
  refine ⟨((q.past lead).past cs).offset, by rw [stages, past_offset]; exact Nat.le_add_right _ _, ?_⟩
  rw [collect_silent q _ _ text before (by omega),
    collect_occurrence _ _ _ _ afterLead found some_ (by rw [past_offset]; omega) (by rw [past_offset]; omega),
    collect_silent _ _ _ afterFound behind (by simp only [past_offset]; omega), sameLine, stages]

/-- A method is collected with its line: the indentation is silent, and so is what stands behind the name. -/
theorem collect_method (q : Place) (m : MethodSource) (rest : List Char) (text : q.rest = m.text ++ rest)
    (admitted : next ≤ q.offset) (within : q.offset + m.text.length ≤ limit) :
    ∃ further, further ≤ (q.past m.text).offset ∧
      collect declarativeMethodAt? limit next (q.onward (m.text ++ rest)) = (m.name.text, q.line) ::
        collect declarativeMethodAt? limit further ((q.past m.text).onward rest) := by
  have onlyMethods (p : Place) : p.rest.head? ≠ some 'S' → declarativeMethodAt? p = none :=
    declarativeMethodAt?_other p
  have pieces : m.text = indentation ++ (m.occurrence ++ parameters) := by
    rw [MethodSource.text, List.append_assoc]
  rw [pieces] at text within ⊢
  have ahead : q.rest = indentation ++ (m.occurrence ++ (parameters ++ rest)) := by
    rw [text, List.append_assoc, List.append_assoc]
  have indented := silent_of_not_mem q indentation _ 'S' ahead onlyMethods (by decide)
  have afterIndentation := past_rest q _ _ ahead
  have bounded : holdsWord (q.past indentation).before = false := by
    rw [past_before q indentation ' ' (by decide)]
    decide
  have found := declarativeMethodAt?_written _ m _ afterIndentation bounded
    (List.mem_append_left _ (by decide))
  have parametersSilent := silent_of_not_mem _ parameters _ 'S' (past_rest _ _ _ afterIndentation) onlyMethods
    (by decide)
  have some_ : m.occurrence ≠ [] := by
    simp [MethodSource.occurrence]
  have line : lineFeeds (indentation ++ m.occurrence) = 0 := by
    have noFeed : lineFeeds indentation = 0 := by decide
    rw [lineFeeds_append, noFeed, lineFeeds_of_oneLine m.occurrence_oneLine]
  have collected :=
    collect_enclosed q _ _ _ rest _ text indented found parametersSilent some_ line admitted within
  rwa [String.ofList_toList] at collected

/-- Where methods are written one behind the other, each is collected with its line. -/
theorem collect_methods (q : Place) (methods : List MethodSource) (rest : List Char)
    (text : q.rest = methods.flatMap MethodSource.text ++ rest) (admitted : next ≤ q.offset)
    (ended : q.offset + (methods.flatMap MethodSource.text).length = limit) :
    collect declarativeMethodAt? limit next (q.onward (methods.flatMap MethodSource.text ++ rest)) =
      methods.mapIdx fun i m => (m.name.text, q.line + 2 * i) := by
  obtain ⟨further, admittedBehind, collected⟩ := collect_flatMap MethodSource.text (fun m => m.name.text) 2
    MethodSource.text_lineFeeds (fun m q more _ ahead before within => collect_method q m more ahead before within)
    q methods rest text admitted (Nat.le_of_eq ended)
  rw [collected, collect_ended _ rest (past_rest q _ _ text) admittedBehind (Nat.le_of_eq ended.symm),
    List.append_nil]

end Collection

section Scan

/-- A declaration ends in a character of its base. -/
theorem InterfaceSource.declaration_last (d : InterfaceSource) :
    ∃ c, d.declaration.getLast? = some c ∧ c ≠ '\n' := by
  obtain ⟨c, last, _⟩ := d.base.last
  have ends : d.declaration.getLast? = some c := by
    simp [declaration, clause, List.getLast?_append, List.getLast?_cons, last]
  exact ⟨c, ends, (d.declaration_oneLine c (List.mem_of_getLast? ends)).2⟩

/-- A body ends in a line end. -/
theorem InterfaceSource.body_last (d : InterfaceSource) : d.body.getLast? = some '\n' := by
  have methodsLast (methods : List MethodSource) :
      (methods.flatMap MethodSource.text).getLast?.or (some '\n') = some '\n' := by
    induction methods with
    | nil => rfl
    | cons m rest inductionHypothesis =>
      have last : m.text.getLast? = some '\n' := by
        rw [MethodSource.text, List.getLast?_append_of_ne_nil _ (by decide)]
        decide
      rw [List.flatMap_cons, List.getLast?_append, last, Option.or_assoc]
      exact inductionHypothesis
  have openingLast : opening.getLast? = some '\n' := by decide
  rw [body, List.getLast?_append, openingLast]
  exact methodsLast d.methods

/-- In a written header the scan behind a declaration finds the methods of its interface, each with the
line on which it is written. -/
theorem scanMethods_written (front rest : List Char) (d : InterfaceSource) :
    scanMethods (front ++ (d.text ++ rest)) (front.length + d.declaration.length) .declarative d.name.text =
      d.methods.mapIdx fun i m => (m.name.text, 1 + lineFeeds front + 2 + 2 * i) := by
  have pieces : front ++ (d.text ++ rest) =
      (front ++ d.declaration) ++ (d.body ++ (d.ending ++ '\n' :: rest)) := by
    simp [InterfaceSource.text]
  rw [pieces, ← List.length_append, scanMethods, occurrences]
  simp only [places_drop]
  generalize origin : Place.start ((front ++ d.declaration) ++ (d.body ++ (d.ending ++ '\n' :: rest))) = start
  have text : start.rest = (front ++ d.declaration) ++ (d.body ++ (d.ending ++ '\n' :: rest)) := by
    rw [← origin]
    rfl
  obtain ⟨last, ends, notFeed⟩ := d.declaration_last
  have before : (start.past (front ++ d.declaration)).before = some last := by
    apply past_before start _ last
    rw [List.getLast?_append, ends]
    rfl
  have line : (start.past (front ++ d.declaration)).line = 1 + lineFeeds front := by
    rw [past_line, lineFeeds_append, lineFeeds_of_oneLine d.declaration_oneLine, ← origin]
    rfl
  have offset : (start.past (front ++ d.declaration)).offset = (front ++ d.declaration).length := by
    rw [past_offset, ← origin]
    exact Nat.zero_add _
  have ahead := past_rest start _ _ text
  generalize start.past (front ++ d.declaration) = q at before line offset ahead
  have silent := silent_end_body d.name.text.toList q d _ ahead ⟨last, before, notFeed⟩
  have afterBody := past_rest q _ _ ahead
  obtain ⟨_, finish⟩ := declarativeEndAt?_written _ d rest afterBody (past_before q _ _ d.body_last)
  have limit : limitOf (declarativeEndAt? d.name.text.toList)
      (front ++ d.declaration ++ (d.body ++ (d.ending ++ '\n' :: rest)))
      (q.onward (d.body ++ (d.ending ++ '\n' :: rest))) = (q.past d.body).offset := by
    rw [limitOf, leftmost_past q _ _ _ ahead silent finish]
  have opened : q.rest = opening ++ (d.methods.flatMap MethodSource.text ++ (d.ending ++ '\n' :: rest)) := by
    rw [ahead, InterfaceSource.body, List.append_assoc]
  have inOpening := silent_of_not_mem q opening _ 'S' opened declarativeMethodAt?_other (by decide)
  have twoFeeds : lineFeeds opening = 2 := by decide
  have lengths : (q.past d.body).offset =
      q.offset + opening.length + (d.methods.flatMap MethodSource.text).length := by
    rw [past_offset, InterfaceSource.body, List.length_append, Nat.add_assoc]
  rw [limit, ← offset]
  have onward_eq : q.onward (d.body ++ (d.ending ++ '\n' :: rest)) = q.onward (opening ++
      (d.methods.flatMap MethodSource.text ++ (d.ending ++ '\n' :: rest))) := by
    rw [InterfaceSource.body, List.append_assoc]
  rw [onward_eq, collect_silent q opening _ opened inOpening (by omega),
    collect_methods (q.past opening) d.methods _ (past_rest q _ _ opened) (by rw [past_offset]; omega)
      (by rw [past_offset]; omega), past_line, line, twoFeeds]

end Scan

end ComLayout.Header
