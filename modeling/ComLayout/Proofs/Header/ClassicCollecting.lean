import ComLayout.Proofs.Header.ClassicLocating
import ComLayout.Proofs.Header.Collecting
import ComLayout.Proofs.Header.EveryMethod

/-!
# Collecting the slots of a generated interface

Behind the declaration of an interface in a generated header the scan for methods finds the slots of its table
and nothing else. A slot has its star before any parenthesis, what is written for the virtual methods has none.
The name of the struct may stand among the virtual methods already; from there on, too, nothing but the slots
is read before the word that ends them.
-/

namespace ComLayout.Header

open Text Place

section EndWord

variable {word : String}

/-- Where a whole word is read, no word ends and the longest run of word characters is that word. -/
theorem run_of_wholeWord? (run : WordRun word.toList) {p q : Place} (read : wholeWord? word p = some q) :
    holdsWord p.before = false ∧ p.rest.takeWhile isWord = word.toList := by
  simp only [wholeWord?, Option.bind_eq_bind, Option.bind_eq_some_iff, demand_eq_some, word?_iff_behind] at read
  obtain ⟨here, ⟨bounded, rfl⟩, _, behind, ended, rfl⟩ := read
  obtain ⟨c, cs, split⟩ := List.exists_cons_of_ne_nil run.1
  constructor
  · rw [Place.isBoundary, rest_of_behind behind, split] at bounded
    exact (isBoundary_word here.before c (run.2 c (by rw [split]; exact List.mem_cons_self))).mp bounded
  · have last := past_before here _ _ (List.getLast?_eq_some_getLast run.1)
    have wordLast := run.2 _ (List.getLast_mem run.1)
    rw [rest_of_behind behind, List.takeWhile_append_of_pos run.2]
    cases text : q.rest with
    | nil => simp
    | cons d rest =>
      rw [Place.isBoundary, behind.2, last, ← behind.2, text] at ended
      have stops : isWord d = false := by
        simpa [Text.isBoundary, holdsWord, wordLast] using ended
      rw [List.takeWhile_cons_of_neg (by simp [stops]), List.append_nil]

/-- A stretch that ends in no word character is silent for a word with which none of its ends begins. -/
theorem silent_wholeWord_fixed (run : WordRun word.toList) (p : Place) (cs rest : List Char)
    (text : p.rest = cs ++ rest) (ended : cs.getLast?.any isWord = false)
    (plain : ∀ bs ∈ cs.tails, bs.takeWhile isWord ≠ word.toList) : Silent (wholeWord? word) p cs := by
  apply silent_of_ahead p cs rest text
  intro q bs begun ending ahead
  rw [Option.eq_none_iff_forall_ne_some]
  intro r read
  have longest := (run_of_wholeWord? run read).2
  apply plain bs ((List.mem_tails _ _).mpr ending)
  rw [← longest, ahead, List.takeWhile_append, if_neg]
  intro same
  have whole := List.takeWhile_eq_self_iff.mp ((List.takeWhile_prefix isWord).eq_of_length same)
  obtain ⟨front, rfl⟩ := ending
  rw [List.getLast?_append_of_ne_nil _ begun, List.getLast?_eq_some_getLast begun] at ended
  rw [Option.any_some, whole _ (List.getLast_mem begun)] at ended
  exact Bool.noConfusion ended

/-- Another word is silent for a word. -/
theorem silent_wholeWord_other (run : WordRun word.toList) (p : Place) (cs rest : List Char) (c : Char)
    (text : p.rest = cs ++ c :: rest) (stops : isWord c = false) (whole : ∀ d ∈ cs, isWord d = true)
    (other : cs ≠ word.toList) : Silent (wholeWord? word) p cs := by
  intro as bs split begun
  rw [Option.eq_none_iff_forall_ne_some]
  intro q read
  obtain ⟨outside, longest⟩ := run_of_wholeWord? run read
  have ahead : p.rest = as ++ (bs ++ c :: rest) := by rw [text, split, List.append_assoc]
  have wholeBehind : ∀ d ∈ bs, isWord d = true := fun d held => whole d (by simp [split, held])
  rw [past_rest p _ _ ahead, List.takeWhile_append_of_pos wholeBehind,
    List.takeWhile_cons_of_neg (by simp [stops]), List.append_nil] at longest
  by_cases started : as = []
  · apply other
    rw [split, started, longest, List.nil_append]
  · have last := past_before p as _ (List.getLast?_eq_some_getLast started)
    have wordLast := whole (as.getLast started) (by rw [split]; exact List.mem_append_left _ (List.getLast_mem _))
    rw [last] at outside
    exact absurd wordLast (by simpa [holdsWord] using outside)

end EndWord

section Methods

/-- Where a slot is read, a star comes first of all characters but blanks and word characters; behind it a
closing parenthesis and an opening one. -/
theorem marks_of_classicMethodAt? {p q : Place} {name : List Char} (read : classicMethodAt? p = some (name, q)) :
    ∃ front middle behind rest, p.rest = front ++ '*' :: (middle ++ ')' :: (behind ++ '(' :: rest)) ∧
      (∀ c, isBlank c = false → isWord c = false → c ∉ front ∧ c ∉ middle) ∧ Blanks behind := by
  obtain ⟨_, method, toEnd⟩ := (classicMethodAt?_iff p q name).mp read
  obtain @⟨beforeStar, _, behind, blank, named, blankBehind⟩ := method
  obtain ⟨body, rfl, without⟩ := closedName_split named
  refine ⟨"STDMETHODCALLTYPE".toList ++ beforeStar, body, behind, q.rest, ?_, ?_, blankBehind⟩
  · rw [rest_of_behind toEnd]
    simp only [List.append_assoc, List.cons_append, List.nil_append]
  · intro c visible other
    have word : ∀ d ∈ "STDMETHODCALLTYPE".toList, isWord d = true := by decide +kernel
    refine ⟨?_, without c visible other⟩
    rw [List.mem_append, not_or]
    refine ⟨fun held => ?_, not_mem_of_blanks blank visible⟩
    rw [word c held] at other
    exact Bool.noConfusion other

/-- Up to another character than a star there is no slot. -/
theorem silent_before_mark (p : Place) (cs rest : List Char) (c : Char) (text : p.rest = (cs ++ [c]) ++ rest)
    (starless : '*' ∉ cs) (visible : isBlank c = false) (mark : isWord c = false) (other : c ≠ '*') :
    Silent classicMethodAt? p (cs ++ [c]) := by
  apply silent_of_ahead p _ rest text
  intro q bs begun ending ahead
  rw [Option.eq_none_iff_forall_ne_some]
  intro r read
  obtain ⟨front, middle, behind, more, split, without, _⟩ := marks_of_classicMethodAt? read
  rcases List.suffix_concat_iff.mp ending with rfl | ⟨inner, rfl, inside⟩
  · exact begun rfl
  · have same : inner ++ c :: rest = front ++ '*' :: (middle ++ ')' :: (behind ++ '(' :: more)) := by
      rw [← split, ahead, List.append_assoc, List.singleton_append]
    have notInInner : '*' ∉ inner := fun held => starless (inside.subset held)
    exact other (stretch_unique same (without c visible mark).1 notInInner).2

/-- A slot begins with its first letter and nothing else. -/
theorem classicMethodAt?_other (p : Place) (other : p.rest.head? ≠ some 'S') : classicMethodAt? p = none := by
  have unread := word?_other p "STDMETHODCALLTYPE" 'S' _ rfl other
  simp only [classicMethodAt?, unread, Option.bind_eq_bind, Option.bind_none]

/-- In the name of an interface before the end of a slot there is no slot. -/
theorem silent_before_slotEnding (p : Place) (name : Identifier) (rest : List Char)
    (text : p.rest = name.text.toList ++ (slotEnding ++ rest)) :
    Silent classicMethodAt? p name.text.toList := by
  have endingCut : slotEnding = [' '] ++ '*' :: (" This".toList ++ ')' :: [';', '\n']) := by decide
  rw [endingCut] at text
  apply silent_of_ahead p _ _ text
  intro q bs _ ending ahead
  rw [Option.eq_none_iff_forall_ne_some]
  intro r read
  obtain ⟨front, middle, behind, more, split, without, blanks⟩ := marks_of_classicMethodAt? read
  have same : (bs ++ [' ']) ++ '*' :: (" This".toList ++ ')' :: ([';', '\n'] ++ rest)) =
      front ++ '*' :: (middle ++ ')' :: (behind ++ '(' :: more)) := by
    rw [← split, ahead]
    simp only [List.append_assoc, List.cons_append, List.nil_append]
  have starless : '*' ∉ bs ++ [' '] := by
    have notInName := name.not_mem '*' (by decide)
    simpa using fun held => notInName (ending.subset held)
  obtain ⟨cut, _⟩ := stretch_unique same (without '*' (by decide) (by decide)).1 starless
  rw [cut, List.append_cancel_left_eq] at same
  obtain ⟨_, tail⟩ := List.cons.inj same
  obtain ⟨cutToo, _⟩ := stretch_unique tail (without ')' (by decide) (by decide)).2 (by decide)
  rw [cutToo, List.append_cancel_left_eq] at tail
  obtain ⟨_, tail⟩ := List.cons.inj tail
  cases behind with
  | nil => simp at tail
  | cons b behind =>
    obtain ⟨rfl, _⟩ := List.cons.inj tail
    exact absurd (blanks ';' List.mem_cons_self) (by decide)

/-- A slot is read where it is written. -/
theorem classicMethodAt?_written (p : Place) (m : Identifier) (rest : List Char)
    (text : p.rest = slotOccurrence m ++ rest) :
    classicMethodAt? p = some (m.text.toList, p.past (slotOccurrence m)) := by
  have callCut : slotCall = "STDMETHODCALLTYPE".toList ++ ([' '] ++ ['*']) := by decide +kernel
  have blank : Blanks [' '] := by decide
  have nothing : Blanks [] := by decide
  have word : WordRun m.text.toList :=
    ⟨m.some_, fun c held => (nameChar_class (m.chars c held)).1⟩
  have method : ClassicMethod m.text.toList (slotOccurrence m) := by
    have written := ClassicMethod.mk blank (ClosedName.mk nothing word blank) nothing
    rw [slotOccurrence, callCut]
    simpa only [List.append_assoc, List.cons_append, List.nil_append] using written
  exact (classicMethodAt?_iff p _ _).mpr ⟨_, method, behind_of_rest text⟩

/-- A slot is collected with its line: nothing else on its lines reads as one. -/
theorem collect_slot (d : ClassicInterface) {limit : Nat} (m : Identifier) (q : Place) (rest : List Char)
    (next : Nat) (text : q.rest = d.slotLines m ++ rest) (admitted : next ≤ q.offset)
    (within : q.offset + (d.slotLines m).length ≤ limit) :
    ∃ further, further ≤ (q.past (d.slotLines m)).offset ∧
      collect classicMethodAt? limit next (q.onward (d.slotLines m ++ rest)) =
        (m.text, q.line) :: collect classicMethodAt? limit further ((q.past (d.slotLines m)).onward rest) := by
  have pieces : d.slotLines m = (slotWords ++ ['('] ++ [' ']) ++ (slotOccurrence m ++ (slotBreak ++
      (d.name.text.toList ++ slotEnding))) := by
    simp only [ClassicInterface.slotLines, List.append_assoc, List.cons_append, List.nil_append]
  rw [pieces] at text within ⊢
  have ahead : q.rest = (slotWords ++ ['(']) ++ ([' '] ++ (slotOccurrence m ++ (slotBreak ++
      (d.name.text.toList ++ (slotEnding ++ rest))))) := by
    simp only [text, List.append_assoc]
  have lead : Silent classicMethodAt? q (slotWords ++ ['('] ++ [' ']) := by
    apply silent_append_ahead q _ _ _ ahead
    · exact silent_before_mark q slotWords _ '(' ahead (by decide) (by decide) (by decide) (by decide)
    · intro r afterParenthesis
      exact silent_of_not_mem r [' '] _ 'S' afterParenthesis classicMethodAt?_other (by decide)
  have afterLead : (q.past (slotWords ++ ['('] ++ [' '])).rest = slotOccurrence m ++ (slotBreak ++
      (d.name.text.toList ++ (slotEnding ++ rest))) := by
    apply past_rest
    rw [ahead]
    simp only [List.append_assoc]
  have found := classicMethodAt?_written _ m _ afterLead
  have afterSlot := past_rest _ _ _ afterLead
  have tail : Silent classicMethodAt? ((q.past (slotWords ++ ['('] ++ [' '])).past (slotOccurrence m))
      (slotBreak ++ (d.name.text.toList ++ slotEnding)) := by
    have whole : slotBreak ++ (d.name.text.toList ++ (slotEnding ++ rest)) =
        slotBreak ++ ((d.name.text.toList ++ slotEnding) ++ rest) := by
      simp only [List.append_assoc]
    apply silent_append_ahead _ _ _ rest (afterSlot.trans whole)
    · exact silent_of_not_mem _ slotBreak _ 'S' afterSlot classicMethodAt?_other (by decide)
    intro r afterBreak
    rw [List.append_assoc] at afterBreak
    apply silent_append_ahead r _ _ rest afterBreak
    · exact silent_before_slotEnding r d.name rest afterBreak
    · intro s afterName
      exact silent_of_not_mem s slotEnding _ 'S' afterName classicMethodAt?_other (by decide)
  have some_ : slotOccurrence m ≠ [] := by
    simp [slotOccurrence]
  have line : lineFeeds (slotWords ++ ['('] ++ [' '] ++ slotOccurrence m) = 0 := by
    have noFeed : lineFeeds (slotWords ++ ['('] ++ [' ']) = 0 := by decide
    rw [lineFeeds_append, noFeed, lineFeeds_of_oneLine (ClassicInterface.slotOccurrence_oneLine m)]
  have collected := collect_enclosed q _ _ _ rest _ text lead found tail some_ line admitted within
  rwa [String.ofList_toList] at collected

end Methods

section Region

variable (d : ClassicInterface)

/-- Between a declaration and the slots nothing reads as a slot. -/
theorem silent_slots_before (p : Place) (rest : List Char)
    (text : p.rest = (d.body ++ d.table ++ tableOpening) ++ rest) :
    Silent classicMethodAt? p (d.body ++ d.table ++ tableOpening) := by
  have openingCut : tableOpening = "\n    ".toList ++ ['\x7b'] ++ "\n        BEGIN_INTERFACE\n".toList := by
    decide +kernel
  have pieces : d.body ++ d.table ++ tableOpening = classOpening ++ (d.virtuals.flatMap
      ClassicInterface.virtualLine ++ (structWords ++ ((d.table ++ "\n    ".toList ++ ['\x7b']) ++
        "\n        BEGIN_INTERFACE\n".toList))) := by
    rw [ClassicInterface.body, openingCut]
    simp only [List.append_assoc]
  rw [pieces] at text ⊢
  rw [List.append_assoc] at text
  apply silent_append_ahead p _ _ rest text
  · exact silent_of_not_mem p _ _ 'S' text classicMethodAt?_other (by decide)
  intro q inVirtuals
  rw [List.append_assoc] at inVirtuals
  apply silent_append_ahead q _ _ rest inVirtuals
  · refine silent_flatMap q _ _ _ inVirtuals fun v _ r more ahead => ?_
    have line : ClassicInterface.virtualLine v = (virtualWords ++ v.text.toList ++ ['(']) ++ virtualEnding := by
      simp only [ClassicInterface.virtualLine, List.append_assoc, List.cons_append, List.nil_append]
    have starless : '*' ∉ virtualWords ++ v.text.toList := by
      rw [List.mem_append, not_or]
      exact ⟨by decide, v.not_mem '*' (by decide)⟩
    rw [line] at ahead ⊢
    rw [List.append_assoc] at ahead
    apply silent_append_ahead r _ _ more ahead
    · exact silent_before_mark r _ _ '(' ahead starless (by decide) (by decide) (by decide)
    · intro s behind
      exact silent_of_not_mem s _ _ 'S' behind classicMethodAt?_other (by decide)
  intro r inStruct
  rw [List.append_assoc] at inStruct
  apply silent_append_ahead r _ _ rest inStruct
  · exact silent_of_not_mem r _ _ 'S' inStruct classicMethodAt?_other (by decide)
  intro s inTable
  rw [List.append_assoc] at inTable
  apply silent_append_ahead s _ _ rest inTable
  · have starless : '*' ∉ d.table ++ "\n    ".toList := by
      have notInSuffix : '*' ∉ tableSuffix := by decide
      have notInName := d.name.not_mem '*' (by decide)
      simp [ClassicInterface.table, notInName, notInSuffix]
    exact silent_before_mark s _ _ '\x7b' inTable starless (by decide) (by decide) (by decide)
  · intro t behind
    exact silent_of_not_mem t _ _ 'S' behind classicMethodAt?_other (by decide)

/-- The word that ends the slots is a run of word characters. -/
theorem wordRun_endWord : WordRun endWord := ⟨by decide, by decide⟩

/-- None of the fixed parts of an interface before the end of its slots holds the word that ends them. -/
theorem endWord_not_in_fixed : ∀ cs ∈ [classOpening, virtualWords, '(' :: virtualEnding, structWords, tableOpening,
    slotWords ++ ['(', ' '] ++ slotCall, [' ', ')', '('] ++ slotBreak, slotEnding, endIndent],
    cs.getLast?.any isWord = false ∧ ∀ bs ∈ cs.tails, bs.takeWhile isWord ≠ endWord := by
  decide +kernel

/-- A fixed part of an interface is silent for the word that ends the slots. -/
theorem silent_end_fixed (p : Place) (cs rest : List Char) (text : p.rest = cs ++ rest)
    (fixed : cs ∈ [classOpening, virtualWords, '(' :: virtualEnding, structWords, tableOpening,
      slotWords ++ ['(', ' '] ++ slotCall, [' ', ')', '('] ++ slotBreak, slotEnding, endIndent]) :
    Silent classicEndAt? p cs := by
  obtain ⟨ended, plain⟩ := endWord_not_in_fixed cs fixed
  exact silent_wholeWord_fixed wordRun_endWord p cs rest text ended plain

/-- A name is silent for the word that ends the slots, if it is another word. -/
theorem silent_end_name (p : Place) (name : Identifier) (c : Char) (rest : List Char)
    (text : p.rest = name.text.toList ++ c :: rest) (stops : isWord c = false)
    (other : name.text.toList ≠ endWord) : Silent classicEndAt? p name.text.toList :=
  silent_wholeWord_other wordRun_endWord p _ rest c text stops
    (fun d held => (nameChar_class (name.chars d held)).1) other

/-- The line of a virtual method is silent for the word that ends the slots. -/
theorem silent_end_virtualLine (p : Place) (v : Identifier) (rest : List Char)
    (text : p.rest = ClassicInterface.virtualLine v ++ rest) (other : v.text.toList ≠ endWord) :
    Silent classicEndAt? p (ClassicInterface.virtualLine v) := by
  rw [ClassicInterface.virtualLine] at text ⊢
  rw [List.append_assoc] at text
  apply silent_append_ahead p _ _ rest text
  · exact silent_end_fixed p _ _ text (by simp)
  intro q inName
  rw [List.append_assoc] at inName
  apply silent_append_ahead q _ _ rest inName
  · exact silent_end_name q v '(' _ inName (by decide) other
  · intro r behind
    exact silent_end_fixed r _ _ behind (by simp)

/-- The lines of a slot are silent for the word that ends the slots. -/
theorem silent_end_slotLines (p : Place) (m : Identifier) (rest : List Char)
    (text : p.rest = d.slotLines m ++ rest) (other : m.text.toList ≠ endWord) :
    Silent classicEndAt? p (d.slotLines m) := by
  have endingCut : slotEnding = ' ' :: "* This);\n".toList := by decide
  have pieces : d.slotLines m = (slotWords ++ ['(', ' '] ++ slotCall) ++ (m.text.toList ++
      (([' ', ')', '('] ++ slotBreak) ++ (d.name.text.toList ++ slotEnding))) := by
    simp only [ClassicInterface.slotLines, slotOccurrence, List.append_assoc, List.cons_append, List.nil_append]
  rw [pieces] at text ⊢
  rw [List.append_assoc] at text
  apply silent_append_ahead p _ _ rest text
  · exact silent_end_fixed p _ _ text (by simp)
  intro q inName
  rw [List.append_assoc] at inName
  apply silent_append_ahead q _ _ rest inName
  · exact silent_end_name q m ' ' _ inName (by decide) other
  intro r behindName
  rw [List.append_assoc] at behindName
  apply silent_append_ahead r _ _ rest behindName
  · exact silent_end_fixed r _ _ behindName (by simp)
  intro s inInterface
  rw [List.append_assoc] at inInterface
  apply silent_append_ahead s _ _ rest inInterface
  · rw [endingCut] at inInterface
    exact silent_end_name s d.name ' ' _ inInterface (by decide) (d.apart d.name List.mem_cons_self)
  · intro t behind
    exact silent_end_fixed t _ _ behind (by simp)

/-- The name of the struct ends in the last letter of its suffix. -/
theorem ClassicInterface.table_last : d.table.getLast? = some 'l' := by
  have suffixLast : tableSuffix.getLast? = some 'l' := by decide
  rw [ClassicInterface.table, List.getLast?_append, suffixLast]
  rfl

/-- The name of the struct is another word than that which ends the slots. -/
theorem ClassicInterface.table_ne_endWord : d.table ≠ endWord := by
  intro same
  have last := d.table_last
  rw [same] at last
  exact absurd last (by decide)

/-- The name of the struct consists of word characters. -/
theorem ClassicInterface.table_word : ∀ c ∈ d.table, isWord c = true := by
  have suffixWord : ∀ c ∈ tableSuffix, isWord c = true := by decide
  intro c held
  rcases List.mem_append.mp held with inName | inSuffix
  · exact (nameChar_class (d.name.chars c inName)).1
  · exact suffixWord c inSuffix

/-- Before the word that ends the slots no such word stands. -/
theorem silent_end_before (p : Place) (rest : List Char)
    (text : p.rest = (d.body ++ d.table ++ (tableOpening ++ d.slotText)) ++ rest) :
    Silent classicEndAt? p (d.body ++ d.table ++ (tableOpening ++ d.slotText)) := by
  have pieces : d.body ++ d.table ++ (tableOpening ++ d.slotText) = classOpening ++ (d.virtuals.flatMap
      ClassicInterface.virtualLine ++ (structWords ++ (d.table ++ (tableOpening ++ (d.methods.flatMap d.slotLines ++
        endIndent))))) := by
    simp only [ClassicInterface.body, ClassicInterface.slotText, List.append_assoc]
  rw [pieces] at text ⊢
  rw [List.append_assoc] at text
  apply silent_append_ahead p _ _ rest text
  · exact silent_end_fixed p _ _ text (by simp)
  intro q inVirtuals
  rw [List.append_assoc] at inVirtuals
  apply silent_append_ahead q _ _ rest inVirtuals
  · exact silent_flatMap q _ _ _ inVirtuals fun v listed r more ahead =>
      silent_end_virtualLine r v more ahead (d.apart v (by simp [listed]))
  intro r inStruct
  rw [List.append_assoc] at inStruct
  apply silent_append_ahead r _ _ rest inStruct
  · exact silent_end_fixed r _ _ inStruct (by simp)
  intro s inTable
  rw [List.append_assoc] at inTable
  apply silent_append_ahead s _ _ rest inTable
  · have openingCut : tableOpening = '\n' :: "    \x7b\n        BEGIN_INTERFACE\n".toList := by decide
    rw [openingCut] at inTable
    exact silent_wholeWord_other wordRun_endWord s _ _ '\n' inTable (by decide) d.table_word d.table_ne_endWord
  intro t inOpening
  rw [List.append_assoc] at inOpening
  apply silent_append_ahead t _ _ rest inOpening
  · exact silent_end_fixed t _ _ inOpening (by simp)
  intro u inSlots
  rw [List.append_assoc] at inSlots
  apply silent_append_ahead u _ _ rest inSlots
  · exact silent_flatMap u _ _ _ inSlots fun m listed w more ahead =>
      silent_end_slotLines d w m more ahead (d.apart m (by simp [listed]))
  · intro w behind
    exact silent_end_fixed w _ _ behind (by simp)

end Region

section Scan

variable (d : ClassicInterface)

/-- The slots of a table are collected with their lines, from anywhere before the table on. -/
theorem collect_table (q : Place) (lead rest : List Char) {next : Nat}
    (text : q.rest = (lead ++ tableOpening) ++ (d.slotText ++ rest))
    (silent : Silent classicMethodAt? q (lead ++ tableOpening)) (admitted : next ≤ q.offset) :
    collect classicMethodAt? (q.past ((lead ++ tableOpening) ++ d.slotText)).offset next
        (q.onward ((lead ++ tableOpening) ++ (d.slotText ++ rest))) =
      d.methods.mapIdx fun i m => (m.text, q.line + (lineFeeds lead + 3) + 2 * i) := by
  have threeFeeds : lineFeeds tableOpening = 3 := by decide
  have afterOpening := past_rest q _ _ text
  have line : (q.past (lead ++ tableOpening)).line = q.line + (lineFeeds lead + 3) := by
    rw [past_line, lineFeeds_append, threeFeeds]
  have limit : (q.past ((lead ++ tableOpening) ++ d.slotText)).offset =
      (q.past (lead ++ tableOpening)).offset + (d.methods.flatMap d.slotLines).length + endIndent.length := by
    rw [ClassicInterface.slotText, ← past_append, past_offset, List.length_append, Nat.add_assoc]
  have before : q.offset + (lead ++ tableOpening).length = (q.past (lead ++ tableOpening)).offset := rfl
  rw [limit, collect_silent q _ _ text silent (by omega)]
  have admittedBehind : next ≤ (q.past (lead ++ tableOpening)).offset := by
    omega
  rw [ClassicInterface.slotText, List.append_assoc] at afterOpening ⊢
  generalize q.past (lead ++ tableOpening) = r at afterOpening line admittedBehind
  obtain ⟨further, admittedLast, collected⟩ := collect_flatMap d.slotLines Identifier.text 2 d.slotLines_lineFeeds
    (fun m q more next ahead before within => collect_slot d m q more next ahead before within)
    r d.methods (endIndent ++ rest) afterOpening admittedBehind (Nat.le_add_right _ endIndent.length)
  have afterSlots := past_rest r _ _ afterOpening
  have indented := silent_of_not_mem _ endIndent _ 'S' afterSlots classicMethodAt?_other (by decide)
  rw [collected, collect_silent _ _ _ afterSlots indented (by rw [past_offset]),
    collect_ended _ _ (past_rest _ _ _ afterSlots) (by rw [past_offset]; omega) (by simp only [past_offset]; omega),
    List.append_nil, line]

/-- The name of the struct stands as a whole behind the class. -/
theorem wholeWordAt_table (front rest : List Char) :
    WholeWordAt (front ++ (d.body ++ (d.table ++ (tableOpening ++ rest)))) d.table (front ++ d.body).length := by
  obtain ⟨c, cs, nameSplit, cNamed⟩ := d.name.head
  have bodyLast : (front ++ d.body).getLast? = some ' ' := by
    have wordsLast : structWords.getLast? = some ' ' := by decide
    simp [ClassicInterface.body, List.getLast?_append, wordsLast]
  have tableHead : d.table = c :: (cs ++ tableSuffix) := by
    rw [ClassicInterface.table, nameSplit, List.cons_append]
  have openingCut : tableOpening = '\n' :: "    \x7b\n        BEGIN_INTERFACE\n".toList := by decide
  refine ⟨front ++ d.body, tableOpening ++ rest, by simp only [List.append_assoc], rfl, ?_, ?_⟩
  · rw [Boundary, bodyLast, tableHead]
    exact (isBoundary_word (some ' ') c (nameChar_class cNamed).1).mpr (by decide)
  · have last : (front ++ d.body ++ d.table).getLast? = some 'l' := by
      rw [List.getLast?_append, d.table_last]
      rfl
    rw [Boundary, last, openingCut]
    exact (by decide : isBoundary (some 'l') (some '\n') = true)

/-- The search for the name of the struct ends within the class or at the struct itself. -/
theorem structStart?_written (front rest : List Char) :
    ∃ lead behind, d.body ++ d.table = lead ++ behind ∧
      structStart? d.name.text (front ++ (d.body ++ (d.table ++ (tableOpening ++ rest)))) front.length =
        some (front ++ lead).length := by
  have held := wholeWordAt_table d front rest
  have spelled : (d.name.text ++ "Vtbl").toList = d.table := String.toList_append
  rw [structStart?, structNameAt?_eq]
  generalize written : front ++ (d.body ++ (d.table ++ (tableOpening ++ rest))) = text at held
  have agrees := wholeWord?_agrees (d.name.text ++ "Vtbl") text
  rw [spelled] at agrees
  have late : front.length ≤ (front ++ d.body).length := by
    rw [List.length_append]
    exact Nat.le_add_right _ _
  cases found : leftmost (wholeWord? (d.name.text ++ "Vtbl")) ((places text).drop front.length) with
  | none => exact absurd held (leftmost_eq_none agrees _ found _ late)
  | some first =>
    obtain ⟨⟨notBefore, _, least⟩, inFront, back, split, place, read⟩ :=
      leftmost_eq_some agrees _ first.1 first.2 found
    rw [place] at read notBefore least
    obtain ⟨behind, rfl, stop, _⟩ := (wholeWord?_iff _ _ _ _).mp read
    rw [placeAt_offset] at notBefore least
    have inside : inFront.length ≤ (front ++ d.body).length := by
      by_contra beyond
      exact least _ late (Nat.lt_of_not_le beyond) held
    rw [spelled] at split stop
    rw [← written] at split
    obtain ⟨lead, rfl⟩ : front <+: inFront :=
      List.prefix_of_prefix_length_le ⟨_, rfl⟩ ⟨_, split.symm⟩ notBefore
    have whole : d.body ++ d.table ++ (tableOpening ++ rest) = (lead ++ d.table) ++ behind := by
      apply List.append_cancel_left
      simpa only [List.append_assoc] using split
    obtain ⟨remainder, cut⟩ : lead ++ d.table <+: d.body ++ d.table := by
      refine List.prefix_of_prefix_length_le ⟨_, whole.symm⟩ ⟨_, rfl⟩ ?_
      simp only [List.length_append] at inside ⊢
      omega
    refine ⟨lead ++ d.table, remainder, cut.symm, ?_⟩
    rw [Option.map_some, stop, placeAt_offset, List.append_assoc]

/-- The word that ends the slots is read where it is written. -/
theorem classicEndAt?_written (front rest : List Char) :
    ∃ q, classicEndAt? (placeAt (front ++ d.slotText) (d.ending ++ rest)) = some q := by
  have slotLast : (front ++ d.slotText).getLast? = some ' ' := by
    have indentLast : endIndent.getLast? = some ' ' := by decide
    simp [ClassicInterface.slotText, List.getLast?_append, indentLast]
  have ahead : d.ending ++ rest = endWord ++ (tableClosing ++ (d.table ++ ';' :: '\n' :: rest)) := by
    simp only [ClassicInterface.ending, List.append_assoc, List.cons_append, List.nil_append]
  have closingCut : tableClosing = '\n' :: "    \x7d ".toList := by decide
  refine ⟨_, (wholeWord?_iff "END_INTERFACE" _ _ _).mpr ⟨_, ahead, rfl, ?_, ?_⟩⟩
  · rw [Boundary, slotLast, ahead]
    exact (isBoundary_word (some ' ') 'E' (by decide)).mpr (by decide)
  · have last : (front ++ d.slotText ++ "END_INTERFACE".toList).getLast? = some 'E' := by
      have wordLast : "END_INTERFACE".toList.getLast? = some 'E' := by decide
      rw [List.getLast?_append, wordLast]
      rfl
    rw [Boundary, last, closingCut]
    exact (by decide : isBoundary (some 'E') (some '\n') = true)

/-- From the name of the struct on, wherever it is found, the slots are collected and nothing else. Both searches
pass over the class, hence over what stands behind the name that was found. -/
theorem occurrences_table (front lead behind rest : List Char) (cut : d.body ++ d.table = lead ++ behind) :
    occurrences classicMethodAt? classicEndAt?
        ((front ++ lead) ++ ((behind ++ tableOpening) ++ (d.slotText ++ (d.ending ++ rest)))) (front ++ lead).length =
      d.methods.mapIdx fun i m => (m.text, 1 + lineFeeds (front ++ lead) + (lineFeeds behind + 3) + 2 * i) := by
  generalize remainder : (behind ++ tableOpening) ++ (d.slotText ++ (d.ending ++ rest)) = back
  have origin : (placeAt front (lead ++ back)).past lead = placeAt (front ++ lead) back := placeAt_past _ _ _
  have slotless : Silent classicMethodAt? (placeAt (front ++ lead) back) (behind ++ tableOpening) := by
    have silent := silent_slots_before d (placeAt front (lead ++ back)) (d.slotText ++ (d.ending ++ rest))
      (by simp [cut, ← remainder])
    rw [cut, List.append_assoc] at silent
    rw [← origin]
    exact silent_behind silent
  have endless : Silent classicEndAt? (placeAt (front ++ lead) back) ((behind ++ tableOpening) ++ d.slotText) := by
    have silent := silent_end_before d (placeAt front (lead ++ back)) (d.ending ++ rest)
      (by simp [cut, ← remainder])
    rw [cut, List.append_assoc, ← List.append_assoc behind] at silent
    rw [← origin]
    exact silent_behind silent
  have text : (placeAt (front ++ lead) back).rest =
      (behind ++ tableOpening) ++ (d.slotText ++ (d.ending ++ rest)) := by
    rw [placeAt_rest, remainder]
  have ended : ∃ r, classicEndAt? ((placeAt (front ++ lead) back).past ((behind ++ tableOpening) ++ d.slotText)) =
      some r := by
    obtain ⟨r, read⟩ := classicEndAt?_written d (front ++ lead ++ (behind ++ tableOpening)) rest
    refine ⟨r, ?_⟩
    rw [← read, ← remainder, ← List.append_assoc _ d.slotText, placeAt_past]
    simp only [List.append_assoc]
  obtain ⟨r, read⟩ := ended
  have line : (placeAt (front ++ lead) back).line = 1 + lineFeeds (front ++ lead) := rfl
  have offset : (front ++ lead).length ≤ (placeAt (front ++ lead) back).offset := by
    rw [placeAt_offset]
  rw [occurrences, places_drop]
  change collect classicMethodAt? (limitOf classicEndAt? _ ((placeAt (front ++ lead) back).onward back)) _
    ((placeAt (front ++ lead) back).onward back) = _
  rw [← line]
  generalize placeAt (front ++ lead) back = q at slotless endless text read offset
  have limit (whole : List Char) : limitOf classicEndAt? whole (q.onward back) =
      (q.past ((behind ++ tableOpening) ++ d.slotText)).offset := by
    have beforeEnd : q.rest = ((behind ++ tableOpening) ++ d.slotText) ++ (d.ending ++ rest) := by
      rw [text, ← List.append_assoc _ d.slotText]
    have found := leftmost_past q _ _ r beforeEnd endless read
    rw [List.append_assoc (behind ++ tableOpening), remainder] at found
    rw [limitOf, found]
  rw [limit, ← remainder]
  exact collect_table d q behind (d.ending ++ rest) text slotless offset

/-- In a generated header the scan behind a declaration finds the slots of its interface, each with the line
on which it is written. -/
theorem scanMethods_classic (front rest : List Char) :
    scanMethods (front ++ (d.text ++ rest)) (d.declaredAt front.length).stop .classic d.name.text =
      d.methods.mapIdx fun i m => (m.text, 1 + lineFeeds front + 8 + d.virtuals.length + 2 * i) := by
  generalize origin : front ++ (margin ++ d.declaration) = before
  have stop : (d.declaredAt front.length).stop = before.length := by
    rw [← origin, ClassicInterface.declaredAt, List.length_append, List.length_append, Nat.add_assoc]
  have pieces : front ++ (d.text ++ rest) =
      before ++ (d.body ++ (d.table ++ (tableOpening ++ (d.slotText ++ (d.ending ++ rest))))) := by
    rw [← origin, ClassicInterface.text]
    simp only [List.append_assoc]
  have beforeLines : lineFeeds before = lineFeeds front + 1 := by
    have indented : lineFeeds margin = 0 := by decide
    rw [← origin, lineFeeds_append, lineFeeds_append, d.declaration_lineFeeds, indented, Nat.zero_add]
  obtain ⟨lead, behind, cut, started⟩ := structStart?_written d before (d.slotText ++ (d.ending ++ rest))
  have whole : before ++ (d.body ++ (d.table ++ (tableOpening ++ (d.slotText ++ (d.ending ++ rest))))) =
      (before ++ lead) ++ ((behind ++ tableOpening) ++ (d.slotText ++ (d.ending ++ rest))) := by
    have inner := congrArg (before ++ · ++ (tableOpening ++ (d.slotText ++ (d.ending ++ rest)))) cut
    simpa only [List.append_assoc] using inner
  have lines : lineFeeds lead + lineFeeds behind = 4 + d.virtuals.length := by
    rw [← lineFeeds_append, ← cut, lineFeeds_append, d.body_lineFeeds, lineFeeds_of_oneLine d.table_oneLine,
      Nat.add_zero]
  have line : 1 + lineFeeds (before ++ lead) + (lineFeeds behind + 3) = 1 + lineFeeds front + 8 + d.virtuals.length := by
    rw [lineFeeds_append, beforeLines]
    omega
  rw [stop, pieces, scanMethods, started]
  dsimp only
  rw [whole, occurrences_table d before lead behind rest cut, line]

end Scan

end ComLayout.Header
