import ComLayout.Proofs.Header.ClassicRendering
import ComLayout.Proofs.Header.FirstDeclaration
import ComLayout.Proofs.Header.Locating

/-!
# Locating an interface in a generated header

A generated header declares each of its interfaces on two lines of its own and nowhere else: of all the
parentheses that it opens, only those of declarations are followed by a quotation mark. So the first
declaration of a name is that of the interface with this name up to case.
-/

namespace ComLayout.Header

open Text Place

section Reading

/-- The end of a line is read where it stands. -/
theorem lineEnd?_feed (p : Place) (rest : List Char) (text : p.rest = '\n' :: rest) :
    lineEnd? p = some (p.past ['\n']) := by
  have plain : Gaps [] := by simp [Gaps]
  exact (lineEnd?_iff p _).mpr ⟨_, .feed plain, behind_of_rest text⟩

/-- Behind an indentation a name is read as a whole exactly if it is the one that is written there. -/
theorem margin_wholeName?_written (name written : Identifier) (p : Place) (rest : List Char)
    (text : p.rest = margin ++ (written.text.toList ++ ' ' :: rest)) :
    (p.reach isGap).findSome? (wholeName? name.text.toList) =
      if lowerString name.text = lowerString written.text then
        some (written.text.toList, (p.past margin).past written.text.toList) else none := by
  obtain ⟨w, ws, split, named⟩ := written.head
  have gaps : Gaps margin := by decide
  have notGap := isGap_of_isWord w (nameChar_class named).1
  have whole := wholeName?_written name written (p.past margin) ' ' rest (past_rest p _ _ text) (by decide)
    (by decide)
  have inner (run more : List Char) (cut : run ++ more = margin) (further : more ≠ []) :
      wholeName? name.text.toList (p.past run) = none := by
    obtain ⟨c, more, rfl⟩ := List.exists_cons_of_ne_nil further
    have blank : ∀ c ∈ margin, c = ' ' := by decide
    obtain rfl := blank c (by rw [← cut]; simp)
    rw [← cut, List.append_assoc] at text
    exact wholeName?_blank name _ _ (past_rest p run _ text)
  have reached : p.reach isGap = (margin.inits.map p.past).reverse := by
    rw [reach_eq_inits, text, split, List.cons_append, List.takeWhile_append_of_pos gaps,
      List.takeWhile_cons_of_neg (by simp [notGap]), List.append_nil]
  by_cases same : lowerString name.text = lowerString written.text
  · rw [if_pos same] at whole ⊢
    have last : margin.inits.map p.past = [[], [' '], [' ', ' '], [' ', ' ', ' ']].map p.past ++ [p.past margin] := by
      rfl
    rw [reached, last, List.reverse_append, List.reverse_singleton, List.singleton_append, List.findSome?_cons,
      whole]
  · rw [if_neg same] at whole ⊢
    rw [reached, List.findSome?_eq_none_iff]
    intro q listed
    obtain ⟨run, begins, rfl⟩ := List.mem_map.mp (List.mem_reverse.mp listed)
    obtain ⟨more, cut⟩ := (List.mem_inits _ _).mp begins
    by_cases further : more = []
    · rw [further, List.append_nil] at cut
      rw [cut, whole]
    · exact inner run more cut further

/-- The base clause of a declaration is read. -/
theorem classicBase?_written (d : ClassicInterface) (p : Place) (rest : List Char)
    (text : p.rest = d.clause ++ '\n' :: rest) : classicBase? p = some (p.past d.clause) := by
  have cut : derivation = (" ".toList ++ ":".toList) ++ (" ".toList ++ "public".toList) ++ " ".toList := by decide
  have gap : Gaps " ".toList := by decide
  have derives : ClassicClause derivation := by
    rw [cut]
    exact .mk gap gap gap (by decide)
  have word : WordRun d.base.text.toList :=
    ⟨d.base.some_, fun c held => (nameChar_class (d.base.chars c held)).1⟩
  refine (classicBase?_iff p _).mpr ⟨derivation, _, derives, word, behind_of_rest text, ?_⟩
  rw [past_rest p _ _ text]
  rfl

/-- Where an interface is written, a name is declared exactly if it is that of the interface up to case. -/
theorem classicAt?_written (name : Identifier) (p : Place) (d : ClassicInterface) (rest : List Char)
    (text : p.rest = d.declaration ++ '\n' :: rest) :
    classicAt? name.text.toList p =
      if lowerString name.text = lowerString d.name.text then
        some ⟨p.offset, (p.past d.declaration).offset, d.name.text, formatIid (String.ofList d.guid.text),
          .classic⟩ else none := by
  have wordsCut : guidWords = "MIDL_INTERFACE(".toList ++ ['"'] := by decide +kernel
  have derivationCut : derivation = ' ' :: ": public ".toList := by decide
  have ahead : p.rest = "MIDL_INTERFACE(".toList ++ ('"' :: (d.guid.text ++ '"' :: ')' ::
      ('\n' :: (margin ++ (d.name.text.toList ++ (d.clause ++ '\n' :: rest)))))) := by
    simp only [text, ClassicInterface.declaration, ClassicInterface.tag, wordsCut, List.append_assoc,
      List.cons_append, List.nil_append]
  obtain ⟨keyword, afterKeyword⟩ := word?_step p "MIDL_INTERFACE(" _ ahead
  have quoted := quotedGuid?_written _ d.guid _ afterKeyword
  have afterQuoted : ((p.past "MIDL_INTERFACE(".toList).past ('"' :: (d.guid.text ++ ['"', ')']))).rest =
      '\n' :: (margin ++ (d.name.text.toList ++ (d.clause ++ '\n' :: rest))) := by
    apply past_rest
    rw [afterKeyword]
    simp
  generalize stage : (p.past "MIDL_INTERFACE(".toList).past ('"' :: (d.guid.text ++ ['"', ')'])) = q
    at quoted afterQuoted
  have ended := lineEnd?_feed q _ afterQuoted
  have afterLine : (q.past ['\n']).rest = margin ++ (d.name.text.toList ++ (d.clause ++ '\n' :: rest)) :=
    past_rest q ['\n'] _ afterQuoted
  have behindLine : (q.past ['\n']).rest = margin ++ (d.name.text.toList ++ ' ' ::
      (": public ".toList ++ (d.base.text.toList ++ '\n' :: rest))) := by
    rw [afterLine, ClassicInterface.clause, derivationCut]
    simp
  have named := margin_wholeName?_written name d.name _ _ behindLine
  have afterName : (((q.past ['\n']).past margin).past d.name.text.toList).rest = d.clause ++ '\n' :: rest :=
    past_rest _ d.name.text.toList _ (past_rest _ margin _ afterLine)
  have based := classicBase?_written d _ _ afterName
  have whole : (((q.past ['\n']).past margin).past d.name.text.toList).past d.clause = p.past d.declaration := by
    rw [← stage, ClassicInterface.declaration, ClassicInterface.tag, wordsCut]
    simp only [past_append, List.append_assoc, List.cons_append, List.nil_append]
  simp only [classicAt?, keyword, quoted, ended, named, Option.bind_eq_bind, Option.bind_some]
  by_cases same : lowerString name.text = lowerString d.name.text
  · simp only [if_pos same, Option.bind_some, based, Option.getD_some, whole, String.ofList_toList]
  · simp only [if_neg same, Option.bind_none]

/-- Where an interface is written, that is the only declaration. -/
theorem declarationAt?_classic (name : Identifier) (p : Place) (d : ClassicInterface) (rest : List Char)
    (text : p.rest = d.declaration ++ '\n' :: rest) :
    declarationAt? name.text.toList p =
      if lowerString name.text = lowerString d.name.text then
        some ⟨p.offset, (p.past d.declaration).offset, d.name.text, formatIid (String.ofList d.guid.text),
          .classic⟩ else none := by
  have notDeclarative : declarativeAt? name.text.toList p = none := by
    have wordsCut : guidWords = 'M' :: "IDL_INTERFACE(\"".toList := by decide +kernel
    have unread : p.word? "interface" = none := by
      apply word?_other p "interface" 'i' _ rfl
      rw [text, ClassicInterface.declaration, ClassicInterface.tag, wordsCut]
      simp
    by_cases bounded : p.isBoundary = true
    · simp only [declarativeAt?, demand, if_pos bounded, unread, Option.bind_eq_bind, Option.bind_some,
        Option.bind_none]
    · simp only [declarativeAt?, demand, if_neg bounded, Option.bind_eq_bind, Option.bind_none]
  rw [declarationAt?, classicAt?_written name p d rest text, notDeclarative]
  split <;> rfl

end Reading

section Silence

variable {name : List Char}

/-- A quoted GUID begins with a quotation mark behind white space. -/
theorem quotedGuid_head {guid : Guid} {quoted : List Char} (identified : QuotedGuid guid quoted) :
    ∃ blank more, quoted = blank ++ '"' :: more ∧ Blanks blank := by
  obtain @⟨blank, behind, blanks, _⟩ := identified
  exact ⟨blank, guid.text ++ ("\"".toList ++ (behind ++ ")".toList)), by simp, blanks⟩

/-- Where a declaration is read, a quotation mark follows the first parenthesis. -/
theorem quote_of_declarationAt? (some_ : name ≠ []) {p : Place} {decl : Declaration}
    (read : declarationAt? name p = some decl) :
    ∃ words blank rest, p.rest = words ++ '(' :: (blank ++ '"' :: rest) ∧ '(' ∉ words ∧ Blanks blank := by
  rw [declarationAt?, Option.orElse_eq_orElse, Option.orElse_eq_or, Option.or_eq_some_iff] at read
  rcases read with classic | ⟨_, declarative⟩
  · obtain ⟨guid, written, _, q, heads, behind, _⟩ := (classicAt?_iff some_ _ _).mp classic
    obtain @⟨_, ended, indent, identified, _, _, _⟩ := heads
    obtain ⟨blank, more, rfl, blanks⟩ := quotedGuid_head identified
    have cut : "MIDL_INTERFACE(".toList = "MIDL_INTERFACE".toList ++ ['('] := by decide +kernel
    refine ⟨"MIDL_INTERFACE".toList, blank, more ++ (ended ++ (indent ++ (written ++ q.rest))), ?_, by decide,
      blanks⟩
    simp only [rest_of_behind behind, cut, List.append_assoc, List.cons_append, List.nil_append]
  · obtain ⟨_, guid, written, _, q, _, _, _, heads, behind, _⟩ := (declarativeAt?_iff some_ _ _).mp declarative
    obtain @⟨gap, tag, _, blank₂, gaps, _, tagged, identified, _, _⟩ := heads
    obtain ⟨blank, more, rfl, blanks⟩ := quotedGuid_head identified
    have notInGap : '(' ∉ gap := not_mem_of_blanks (blanks_of_gaps gaps) (by decide)
    have notInTag : '(' ∉ tag := not_mem_of_wordRun (wordRun_of_declareTag tagged) (by decide)
    have opened : "(".toList = ['('] := by decide
    refine ⟨"interface".toList ++ (gap ++ tag), blank, more ++ (blank₂ ++ (written ++ q.rest)), ?_, ?_, blanks⟩
    · simp only [rest_of_behind behind, opened, List.append_assoc, List.cons_append, List.nil_append]
    · simp [notInGap, notInTag]

/-- A text begins, behind white space, with something else than a quotation mark. -/
def Unquoted (cs : List Char) : Prop :=
  ∃ blank c rest, cs = blank ++ c :: rest ∧ Blanks blank ∧ isBlank c = false ∧ c ≠ '"'

/-- How a text goes on makes no difference to its beginning. -/
theorem unquoted_append {as : List Char} (unquoted : Unquoted as) (bs : List Char) : Unquoted (as ++ bs) := by
  obtain ⟨blank, c, rest, rfl, blanks, visible, other⟩ := unquoted
  exact ⟨blank, c, rest ++ bs, by simp, blanks, visible, other⟩

/-- Up to a parenthesis there is no declaration if no quotation mark follows. -/
theorem silent_unquoted (some_ : name ≠ []) (p : Place) (cs more : List Char)
    (text : p.rest = (cs ++ ['(']) ++ more) (within : '(' ∉ cs) (unquoted : Unquoted more) :
    Silent (declarationAt? name) p (cs ++ ['(']) := by
  obtain ⟨blank, c, rest, rfl, blanks, visible, other⟩ := unquoted
  apply silent_of_ahead p (cs ++ ['(']) _ text
  intro q bs begun ending ahead
  rw [Option.eq_none_iff_forall_ne_some]
  intro decl read
  obtain ⟨words, blank₂, more, split, outside, blanks₂⟩ := quote_of_declarationAt? some_ read
  rcases List.suffix_concat_iff.mp ending with rfl | ⟨front, rfl, inside⟩
  · exact begun rfl
  · have same : words ++ '(' :: (blank₂ ++ '"' :: more) = front ++ '(' :: (blank ++ c :: rest) := by
      rw [← split, ahead, List.append_assoc, List.singleton_append]
    have notInFront : '(' ∉ front := fun held => within (inside.subset held)
    obtain ⟨rfl, _⟩ := stretch_unique same notInFront outside
    have behind : blank₂ ++ '"' :: more = blank ++ c :: rest := by simpa using same
    have quoteOutside : '"' ∉ blank := not_mem_of_blanks blanks (by decide)
    exact other (stretch_unique behind quoteOutside (not_mem_of_blanks blanks₂ visible)).2.symm

/-- Before anything but the first letters of the two grammars there is no declaration. -/
theorem declarationAt?_other (p : Place) (notClassic : p.rest.head? ≠ some 'M')
    (notDeclarative : p.rest.head? ≠ some 'i') : declarationAt? name p = none := by
  have unread := word?_other p "MIDL_INTERFACE(" 'M' _ rfl notClassic
  have unreadToo := word?_other p "interface" 'i' _ rfl notDeclarative
  have fails : classicAt? name p = none := by
    simp only [classicAt?, unread, Option.bind_eq_bind, Option.bind_none]
  have failsToo : declarativeAt? name p = none := by
    by_cases bounded : p.isBoundary = true
    · simp only [declarativeAt?, demand, if_pos bounded, unreadToo, Option.bind_eq_bind, Option.bind_some,
        Option.bind_none]
    · simp only [declarativeAt?, demand, if_neg bounded, Option.bind_eq_bind, Option.bind_none]
  rw [declarationAt?, fails, failsToo]
  rfl

/-- Within the line of a virtual method there is no declaration. -/
theorem silent_virtualLine (some_ : name ≠ []) (p : Place) (v : Identifier) (rest : List Char)
    (text : p.rest = ClassicInterface.virtualLine v ++ rest) :
    Silent (declarationAt? name) p (ClassicInterface.virtualLine v) := by
  obtain ⟨ended, endingCut, notInEnded, unquoted⟩ : ∃ ended, virtualEnding = ended ++ ['\n'] ∧ '(' ∉ ended ∧
      Unquoted virtualEnding :=
    ⟨" void) = 0;".toList, by decide, by decide, [' '], 'v', "oid) = 0;\n".toList, by decide, by decide, by decide,
      by decide⟩
  have pieces : ClassicInterface.virtualLine v = (virtualWords ++ v.text.toList ++ ['(']) ++ virtualEnding := by
    simp only [ClassicInterface.virtualLine, List.append_assoc, List.cons_append, List.nil_append]
  have plain : '(' ∉ virtualWords ++ v.text.toList := by
    rw [List.mem_append, not_or]
    exact ⟨by decide, v.not_mem '(' (by decide)⟩
  rw [pieces] at text ⊢
  rw [List.append_assoc] at text
  apply silent_append_ahead p _ _ rest text
  · exact silent_unquoted some_ p _ _ text plain (unquoted_append unquoted rest)
  · intro q ahead
    rw [endingCut] at ahead ⊢
    exact silent_before_line_end q ended rest ahead notInEnded

/-- Within the lines of a slot there is no declaration. -/
theorem silent_slotLines (some_ : name ≠ []) (d : ClassicInterface) (p : Place) (m : Identifier)
    (rest : List Char) (text : p.rest = d.slotLines m ++ rest) :
    Silent (declarationAt? name) p (d.slotLines m) := by
  obtain ⟨c, cs, nameSplit, cNamed⟩ := d.name.head
  obtain ⟨ended, endingCut, notInEnded⟩ : ∃ ended, slotEnding = ended ++ ['\n'] ∧ '(' ∉ ended :=
    ⟨" * This);".toList, by decide, by decide⟩
  have callUnquoted : Unquoted (' ' :: slotCall) :=
    ⟨[' '], 'S', "TDMETHODCALLTYPE *".toList, by decide, by decide, by decide, by decide⟩
  have nameUnquoted : Unquoted (slotBreak ++ d.name.text.toList) := by
    refine ⟨slotBreak, c, cs, by rw [nameSplit], by decide, (nameChar_class cNamed).2.1, ?_⟩
    rintro rfl
    revert cNamed
    decide
  have notInSlot : '(' ∉ ' ' :: (slotCall ++ (m.text.toList ++ [' ', ')'])) := by
    have notInCall : '(' ∉ slotCall := by decide
    simp [notInCall, m.not_mem '(' (by decide)]
  have notInLine : '(' ∉ slotBreak ++ d.name.text.toList ++ ended := by
    have notInBreak : '(' ∉ slotBreak := by decide
    simp [notInBreak, notInEnded, d.name.not_mem '(' (by decide)]
  have pieces : d.slotLines m = (slotWords ++ ['(']) ++ ((' ' :: (slotCall ++ (m.text.toList ++ [' ', ')'])) ++ ['(']) ++
      (slotBreak ++ d.name.text.toList ++ ended ++ ['\n'])) := by
    simp only [ClassicInterface.slotLines, slotOccurrence, endingCut, List.append_assoc, List.cons_append,
      List.nil_append]
  rw [pieces] at text ⊢
  rw [List.append_assoc] at text
  apply silent_append_ahead p _ _ rest text
  · refine silent_unquoted some_ p slotWords _ text (by decide) ?_
    simp only [List.append_assoc, List.cons_append]
    exact unquoted_append callUnquoted _
  · intro q ahead
    rw [List.append_assoc] at ahead
    apply silent_append_ahead q _ _ rest ahead
    · refine silent_unquoted some_ q _ _ ahead notInSlot ?_
      rw [List.append_assoc, List.append_assoc]
      exact unquoted_append nameUnquoted _
    · intro r afterSlot
      exact silent_before_line_end r _ rest afterSlot notInLine

/-- In lines without a parenthesis there is no declaration. -/
theorem silent_lines (p : Place) (cs rest : List Char) (text : p.rest = cs ++ rest) (within : '(' ∉ cs)
    (ended : cs.getLast? = some '\n') : Silent (declarationAt? name) p cs := by
  obtain ⟨front, rfl⟩ := List.getLast?_eq_some_iff.mp ended
  have notInFront : '(' ∉ front := fun held => within (List.mem_append_left _ held)
  exact silent_before_line_end p front rest text notInFront

/-- The lines of an interface: the indentation, those of the declaration, those of the virtual methods, those
that open the table, those of the slots and those that close the table. -/
theorem ClassicInterface.text_lines (d : ClassicInterface) : d.text =
    margin ++ ((d.declaration ++ classOpening) ++ (d.virtuals.flatMap virtualLine ++
      ((structWords ++ (d.table ++ tableOpening)) ++ (d.methods.flatMap d.slotLines ++
        (endIndent ++ d.ending))))) := by
  simp only [text, body, slotText, List.append_assoc]

/-- The lines of an interface go on behind its declaration with the end of the line. -/
theorem ClassicInterface.text_declaration (d : ClassicInterface) (rest : List Char) :
    ∃ more, d.text ++ rest = margin ++ (d.declaration ++ '\n' :: more) := by
  have opened : classOpening = '\n' :: "    \x7b\n    public:\n".toList := by decide
  rw [text_lines, opened]
  simp only [List.append_assoc, List.cons_append]
  exact ⟨_, rfl⟩

/-- Within the lines of a declaration only its own name is declared. -/
theorem silent_declarationLines (name : Identifier) (p : Place) (d : ClassicInterface) (rest : List Char)
    (text : p.rest = (d.declaration ++ classOpening) ++ rest)
    (other : lowerString name.text ≠ lowerString d.name.text) :
    Silent (declarationAt? name.text.toList) p (d.declaration ++ classOpening) := by
  have opened : classOpening = '\n' :: "    \x7b\n    public:\n".toList := by decide
  have here : declarationAt? name.text.toList p = none := by
    rw [opened, List.append_assoc] at text
    rw [declarationAt?_classic name p d _ text, if_neg other]
  obtain ⟨inner, split, notInInner, ended⟩ : ∃ inner, d.declaration ++ classOpening =
      'M' :: (("IDL_INTERFACE".toList ++ ['(']) ++ inner) ∧ '(' ∉ inner ∧ inner.getLast? = some '\n' := by
    have wordsCut : guidWords = 'M' :: (("IDL_INTERFACE".toList ++ ['(']) ++ ['"']) := by decide +kernel
    refine ⟨'"' :: (d.guid.text ++ ('"' :: ')' :: '\n' :: (margin ++ (d.name.text.toList ++ (derivation ++
      (d.base.text.toList ++ classOpening)))))), ?_, ?_, ?_⟩
    · rw [ClassicInterface.declaration, ClassicInterface.tag, ClassicInterface.clause, wordsCut]
      simp only [List.append_assoc, List.cons_append, List.nil_append]
    · have notInGuid : '(' ∉ d.guid.text := fun held => (d.guid.chars '(' held).2.2 rfl
      have fixed : '(' ∉ margin ∧ '(' ∉ derivation ∧ '(' ∉ classOpening := by decide
      obtain ⟨notInMargin, notInDerivation, notInOpening⟩ := fixed
      simp [notInGuid, notInMargin, notInDerivation, notInOpening, d.name.not_mem '(' (by decide),
        d.base.not_mem '(' (by decide)]
    · have last : classOpening.getLast? = some '\n' := by decide
      simp [List.getLast?_append, List.getLast?_cons, last]
  rw [split] at text ⊢
  apply silent_cons p 'M' _ here
  have afterFirst : (p.past ['M']).rest = ("IDL_INTERFACE".toList ++ ['(']) ++ (inner ++ rest) := by
    rw [← List.append_assoc]
    exact past_rest p ['M'] _ text
  apply silent_append_ahead _ _ _ rest afterFirst
  · have plain : ∀ bs ∈ "IDL_INTERFACE".toList.tails, introduces bs = false := by decide +kernel
    exact silent_before_parenthesis _ _ _ afterFirst (by decide) fun bs ending =>
      plain bs ((List.mem_tails _ _).mpr ending)
  · intro q ahead
    exact silent_lines q inner rest ahead notInInner ended

/-- Within an indentation there is no declaration. -/
theorem silent_margin (p : Place) (rest : List Char) (text : p.rest = margin ++ rest) :
    Silent (declarationAt? name) p margin := by
  apply silent_of_ahead p margin rest text
  intro q bs begun ending ahead
  obtain ⟨c, bs, rfl⟩ := List.exists_cons_of_ne_nil begun
  have blank : ∀ c ∈ margin, c = ' ' := by decide
  obtain rfl := blank c (ending.subset List.mem_cons_self)
  apply declarationAt?_other
  · simp [ahead]
  · simp [ahead]

/-- Within the lines of an interface only its own name is declared, and only behind their indentation. -/
theorem silent_classic (name : Identifier) (p : Place) (d : ClassicInterface) (rest : List Char)
    (text : p.rest = d.text ++ rest) (other : lowerString name.text ≠ lowerString d.name.text) :
    Silent (declarationAt? name.text.toList) p d.text := by
  have fixed : '(' ∉ structWords ∧ '(' ∉ tableSuffix ∧ '(' ∉ tableOpening ∧ '(' ∉ endIndent ∧ '(' ∉ endWord ∧
      '(' ∉ tableClosing := by decide
  obtain ⟨notInStruct, notInSuffix, notInOpening, notInIndent, notInEnd, notInClosing⟩ := fixed
  have notInTable : '(' ∉ d.table := by
    simp [ClassicInterface.table, notInSuffix, d.name.not_mem '(' (by decide)]
  have openingLast : tableOpening.getLast? = some '\n' := by decide
  rw [d.text_lines] at text ⊢
  rw [List.append_assoc] at text
  apply silent_append_ahead p _ _ rest text
  · exact silent_margin p _ text
  intro q inDeclaration
  rw [List.append_assoc] at inDeclaration
  apply silent_append_ahead q _ _ rest inDeclaration
  · exact silent_declarationLines name q d _ inDeclaration other
  intro r inVirtuals
  rw [List.append_assoc] at inVirtuals
  apply silent_append_ahead r _ _ rest inVirtuals
  · exact silent_flatMap r _ _ _ inVirtuals fun v _ s more ahead => silent_virtualLine name.some_ s v more ahead
  intro s inStruct
  rw [List.append_assoc] at inStruct
  apply silent_append_ahead s _ _ rest inStruct
  · apply silent_lines s _ _ inStruct
    · simp [notInStruct, notInTable, notInOpening]
    · simp [List.getLast?_append, openingLast]
  intro t inSlots
  rw [List.append_assoc] at inSlots
  apply silent_append_ahead t _ _ rest inSlots
  · exact silent_flatMap t _ _ _ inSlots fun m _ u more ahead => silent_slotLines name.some_ d u m more ahead
  intro u inEnding
  apply silent_lines u _ rest inEnding
  · simp [ClassicInterface.ending, notInIndent, notInEnd, notInClosing, notInTable]
  · simp [ClassicInterface.ending, List.getLast?_append]

/-- Within the lines of some interfaces no name but theirs is declared. -/
theorem silent_textOfClassic (name : Identifier) (p : Place) (interfaces : List ClassicInterface)
    (rest : List Char) (text : p.rest = textOfClassic interfaces ++ rest)
    (others : ∀ d ∈ interfaces, lowerString name.text ≠ lowerString d.name.text) :
    Silent (declarationAt? name.text.toList) p (textOfClassic interfaces) :=
  silent_flatMap p interfaces _ rest text fun d listed q more ahead =>
    silent_classic name q d more ahead (others d listed)

end Silence

section Header

/-- The declaration of an interface whose lines begin at an offset. -/
def ClassicInterface.declaredAt (d : ClassicInterface) (start : Nat) : Declaration :=
  ⟨start + margin.length, start + margin.length + d.declaration.length, d.name.text,
    formatIid (String.ofList d.guid.text), .classic⟩

/-- In a generated header the first declaration of a name is that of the interface with this name up to
case. -/
theorem firstDeclaration?_classic (name : Identifier) (before after : List ClassicInterface)
    (d : ClassicInterface) (same : lowerString name.text = lowerString d.name.text)
    (others : ∀ e ∈ before, lowerString name.text ≠ lowerString e.name.text) :
    firstDeclaration? name.text (textOfClassic (before ++ d :: after)) =
      some (d.declaredAt (textOfClassic before).length) := by
  obtain ⟨more, declared⟩ := d.text_declaration (textOfClassic after)
  have split : textOfClassic (before ++ d :: after) =
      (textOfClassic before ++ margin) ++ (d.declaration ++ '\n' :: more) := by
    rw [List.append_assoc, ← declared, textOfClassic, List.flatMap_append, List.flatMap_cons]
    rfl
  rw [firstDeclaration?, split, firstSuccess]
  generalize origin : Place.start ((textOfClassic before ++ margin) ++ (d.declaration ++ '\n' :: more)) = p
  have ahead : p.rest = (textOfClassic before ++ margin) ++ (d.declaration ++ '\n' :: more) := by
    rw [← origin]
    rfl
  have text : p.rest = textOfClassic before ++ (margin ++ (d.declaration ++ '\n' :: more)) := by
    rw [ahead, List.append_assoc]
  have offset : p.offset = 0 := by
    rw [← origin]
    rfl
  have silent : Silent (declarationAt? name.text.toList) p (textOfClassic before ++ margin) := by
    apply silent_append_ahead p _ _ _ text
    · exact silent_textOfClassic name p before _ text others
    · intro q indented
      exact silent_margin q _ indented
  have here := declarationAt?_classic name _ d more (past_rest p _ _ ahead)
  rw [if_pos same] at here
  rw [firstOnward_past p _ _ ahead silent, firstOnward_of_some _ _ _ here]
  simp only [ClassicInterface.declaredAt, past_offset, offset, List.length_append, Nat.zero_add]

end Header

end ComLayout.Header
