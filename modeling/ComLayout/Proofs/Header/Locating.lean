import ComLayout.Proofs.Header.ReadingBack
import Mathlib.Data.List.TakeWhile

/-!
# Locating an interface in a written header

A written header declares each of its interfaces where its lines begin and nowhere else. A declaration is
read only where the line goes on with words that introduce a GUID and a parenthesis behind them. Everything
else in a written header is silent, so that the first declaration of a name is that of its interface.
-/

namespace ComLayout.Header

open Text Place

section Silence

/-- Whether words may stand before the parenthesis of a declaration, as far as their ends tell. -/
def introduces (words : List Char) : Bool :=
  words == "MIDL_INTERFACE".toList ||
    (words.head? == some 'i' && (words.getLast? == some 'E' || words.getLast? == some 'D'))

/-- What introduces a declaration ends in one of two letters. -/
theorem introduces_last {words : List Char} (holds : introduces words = true) :
    words.getLast? = some 'E' ∨ words.getLast? = some 'D' := by
  simp only [introduces, Bool.or_eq_true, Bool.and_eq_true, beq_iff_eq] at holds
  rcases holds with rfl | ⟨_, last⟩
  · exact .inl (by decide)
  · exact last

/-- A word that introduces a GUID ends in one of two letters. -/
theorem isDeclareTag_last {tag : List Char} (holds : isDeclareTag tag = true) :
    tag.getLast? = some 'E' ∨ tag.getLast? = some 'D' := by
  simp only [isDeclareTag, Bool.or_eq_true, List.isSuffixOf_iff_suffix, beq_iff_eq] at holds
  rcases holds with ⟨front, rfl⟩ | rfl
  · refine .inl ?_
    rw [List.getLast?_append_of_ne_nil _ (by decide)]
    decide
  · exact .inr (by decide)

/-- A run is what the text goes on with. -/
theorem rest_of_run (p : Place) (cond : Char → Bool) :
    p.rest = p.rest.takeWhile cond ++ (p.past (p.rest.takeWhile cond)).rest := by
  rw [past_rest p _ _ List.takeWhile_append_dropWhile.symm, List.takeWhile_append_dropWhile]

/-- Where a declarative declaration is read, the keyword, blanks and a word that introduces a GUID stand
before a parenthesis. -/
theorem tag_of_declarativeAt? {name : List Char} {p : Place} {decl : Declaration}
    (read : declarativeAt? name p = some decl) :
    ∃ gaps tag rest, p.rest = "interface".toList ++ gaps ++ tag ++ '(' :: rest ∧
      (∀ c ∈ gaps, isGap c = true) ∧ (∀ c ∈ tag, isWord c = true) ∧ isDeclareTag tag = true := by
  simp only [declarativeAt?, Option.bind_eq_bind, Option.bind_eq_some_iff, Prod.exists,
    demand_eq_some] at read
  obtain ⟨here, ⟨_, rfl⟩, _, keyword, gaps, r, ran, _, ⟨tagged, rfl⟩, _, opened, _⟩ := read
  obtain ⟨⟨rest, text⟩, rfl⟩ := (word?_eq_some _ _ _).mp keyword
  obtain ⟨_, longest, rfl⟩ := (run?_eq_some _ _ _ _).mp ran
  have afterKeyword := past_rest _ _ rest text.symm
  have afterGaps := rest_of_run (here.past "interface".toList) isGap
  rw [← longest, afterKeyword] at afterGaps
  generalize (here.past "interface".toList).past gaps = r at tagged opened afterGaps
  have afterTag := rest_of_run r isWord
  simp only [run] at tagged opened
  rw [skip_eq_past] at opened
  obtain ⟨⟨more, ahead⟩, _⟩ := (word?_eq_some _ _ _).mp opened
  rw [← ahead] at afterTag
  have word : ∀ c ∈ r.rest.takeWhile isWord, isWord c = true := by
    intro c held
    exact List.mem_takeWhile_imp held
  generalize r.rest.takeWhile isWord = tag at tagged afterTag word
  refine ⟨gaps, tag, more, ?_, ?_, word, tagged⟩
  · rw [← text, afterGaps, afterTag, List.append_assoc, List.append_assoc]
    rfl
  · intro c held
    exact List.mem_takeWhile_imp (longest ▸ held)

/-- Where a declaration is read, words that introduce it stand in one line before a parenthesis. -/
theorem introduced_of_declarationAt? {name : List Char} {p : Place} {decl : Declaration}
    (read : declarationAt? name p = some decl) :
    ∃ words rest, p.rest = words ++ '(' :: rest ∧ introduces words = true ∧ '(' ∉ words ∧ '\n' ∉ words := by
  simp only [declarationAt?, Option.orElse_eq_orElse, Option.orElse_eq_or, Option.or_eq_some_iff] at read
  rcases read with classic | ⟨_, declarative⟩
  · simp only [classicAt?, Option.bind_eq_bind, Option.bind_eq_some_iff] at classic
    obtain ⟨_, keyword, _⟩ := classic
    obtain ⟨⟨rest, text⟩, _⟩ := (word?_eq_some _ _ _).mp keyword
    have cut : "MIDL_INTERFACE(".toList = "MIDL_INTERFACE".toList ++ ['('] := by decide +kernel
    rw [cut, List.append_assoc] at text
    exact ⟨"MIDL_INTERFACE".toList, rest, text.symm, by decide, by decide, by decide⟩
  · obtain ⟨gaps, tag, rest, text, blank, word, tagged⟩ := tag_of_declarativeAt? declarative
    have outside (c : Char) (notFixed : c ∉ "interface".toList) (notBlank : isGap c = false)
        (notWord : isWord c = false) : c ∉ "interface".toList ++ gaps ++ tag := by
      intro held
      rcases List.mem_append.mp held with front | inTag
      · rcases List.mem_append.mp front with fixed | inGaps
        · exact notFixed fixed
        · exact absurd (blank c inGaps) (by simp [notBlank])
      · exact absurd (word c inTag) (by simp [notWord])
    have last := isDeclareTag_last tagged
    have ends : ("interface".toList ++ gaps ++ tag).getLast? = tag.getLast? := by
      rw [List.getLast?_append]
      rcases last with last | last <;> rw [last] <;> rfl
    have begins : ("interface".toList ++ gaps ++ tag).head? = some 'i' := by
      rw [List.append_assoc]
      rfl
    have introduced : introduces ("interface".toList ++ gaps ++ tag) = true := by
      rw [introduces, ends, begins]
      rcases last with last | last <;> simp [last]
    exact ⟨_, rest, text, introduced, outside '(' (by decide) (by decide) (by decide),
      outside '\n' (by decide) (by decide) (by decide)⟩

variable {name : List Char}

/-- Up to a parenthesis or to the end of a line there is no declaration, if no parenthesis stands before it and,
where it is one itself, no end of the stretch introduces a declaration. -/
theorem silent_before_stop {stop : Char} (kind : stop = '(' ∨ stop = '\n') (p : Place) (cs rest : List Char)
    (text : p.rest = (cs ++ [stop]) ++ rest) (within : '(' ∉ cs)
    (plain : stop = '(' → ∀ bs, bs <:+ cs → introduces bs = false) :
    Silent (declarationAt? name) p (cs ++ [stop]) := by
  apply silent_of_ahead p (cs ++ [stop]) rest text
  intro q bs some_ ending ahead
  rw [Option.eq_none_iff_forall_ne_some]
  intro decl read
  obtain ⟨words, others, split, holds, outside, oneLine⟩ := introduced_of_declarationAt? read
  rcases List.suffix_concat_iff.mp ending with rfl | ⟨front, rfl, inside⟩
  · exact some_ rfl
  · have same : words ++ '(' :: others = front ++ stop :: rest := by
      rw [← split, ahead, List.append_assoc, List.singleton_append]
    have notInFront : '(' ∉ front := fun held => within (inside.subset held)
    have notInWords : stop ∉ words := by
      rcases kind with rfl | rfl
      · exact outside
      · exact oneLine
    obtain ⟨rfl, isStop⟩ := stretch_unique same notInFront notInWords
    rw [plain isStop.symm words inside] at holds
    exact absurd holds Bool.false_ne_true

/-- Up to a parenthesis there is no declaration if no end of the stretch introduces one. -/
theorem silent_before_parenthesis (p : Place) (cs rest : List Char) (text : p.rest = (cs ++ ['(']) ++ rest)
    (within : '(' ∉ cs) (plain : ∀ bs, bs <:+ cs → introduces bs = false) :
    Silent (declarationAt? name) p (cs ++ ['(']) :=
  silent_before_stop (.inl rfl) p cs rest text within fun _ => plain

/-- Up to the end of a line there is no declaration if there is no parenthesis. -/
theorem silent_before_line_end (p : Place) (cs rest : List Char) (text : p.rest = (cs ++ ['\n']) ++ rest)
    (within : '(' ∉ cs) : Silent (declarationAt? name) p (cs ++ ['\n']) :=
  silent_before_stop (.inr rfl) p cs rest text within fun parenthesis => absurd parenthesis (by decide)

/-- The lines of a method, cut at their parentheses. -/
theorem MethodSource.text_cut (m : MethodSource) : ∃ front middle,
    m.text = front ++ '(' :: (middle ++ ')' :: parameters) ∧ '(' ∉ middle ∧
    (front = indentation ++ methodWord ∨ front = indentation ++ (methodWord ++ ['_'])) := by
  have notInName : '(' ∉ m.name.text.toList := m.name.not_mem '(' (by decide)
  unfold text occurrence announcement
  cases m.returns with
  | none =>
    refine ⟨indentation ++ methodWord, m.name.text.toList, ?_, notInName, .inl rfl⟩
    simp only [List.append_assoc, List.cons_append, List.nil_append]
  | some type =>
    refine ⟨indentation ++ (methodWord ++ ['_']), type.text ++ ([',', ' '] ++ m.name.text.toList), ?_, ?_,
      .inr rfl⟩
    · simp only [List.append_assoc, List.cons_append, List.nil_append]
    · intro held
      rcases List.mem_append.mp held with inType | behind
      · exact type.plain.2.1 inType
      · rcases List.mem_append.mp behind with inComma | inName
        · exact absurd inComma (by decide)
        · exact notInName inName

/-- Within the lines of a method there is no declaration. What stands before the first parenthesis holds no
word that introduces one, and what stands before the second ends in another parenthesis. -/
theorem silent_method (p : Place) (m : MethodSource) (rest : List Char) (text : p.rest = m.text ++ rest) :
    Silent (declarationAt? name) p m.text := by
  obtain ⟨front, middle, cut, notInMiddle, known⟩ := m.text_cut
  obtain ⟨ended, parametersCut, notInEnded⟩ : ∃ ended, parameters = '(' :: (ended ++ ['\n']) ∧ '(' ∉ ended :=
    ⟨"\n        ) PURE;".toList, by decide, by decide⟩
  have frontPlain : '(' ∉ front ∧ ∀ bs, bs <:+ front → introduces bs = false := by
    have each : ∀ front ∈ [indentation ++ methodWord, indentation ++ (methodWord ++ ['_'])],
        '(' ∉ front ∧ ∀ bs ∈ front.tails, introduces bs = false := by decide
    obtain ⟨outside, plain⟩ := each front (by simpa using known)
    exact ⟨outside, fun bs ending => plain bs ((List.mem_tails _ _).mpr ending)⟩
  have middlePlain : ∀ bs, bs <:+ middle ++ [')'] → introduces bs = false := by
    intro bs ending
    rcases List.suffix_concat_iff.mp ending with rfl | ⟨inner, rfl, _⟩
    · decide
    · cases holds : introduces (inner ++ [')']) with
      | false => rfl
      | true =>
        have last := introduces_last holds
        rw [List.getLast?_append_of_ne_nil _ (by simp)] at last
        exact absurd last (by decide)
  have pieces : m.text = (front ++ ['(']) ++ ((middle ++ [')'] ++ ['(']) ++ (ended ++ ['\n'])) := by
    simp [cut, parametersCut]
  rw [pieces, List.append_assoc] at text
  rw [pieces]
  apply silent_append_ahead p _ _ rest text
  · exact silent_before_parenthesis p front _ text frontPlain.1 frontPlain.2
  intro q afterFront
  rw [List.append_assoc] at afterFront
  apply silent_append_ahead q _ _ rest afterFront
  · have notInClosed : '(' ∉ middle ++ [')'] := by simp [notInMiddle]
    exact silent_before_parenthesis q _ _ afterFront notInClosed middlePlain
  intro r afterMiddle
  exact silent_before_line_end r ended rest afterMiddle notInEnded

/-- Within some methods there is no declaration. -/
theorem silent_methods (p : Place) (methods : List MethodSource) (rest : List Char)
    (text : p.rest = methods.flatMap MethodSource.text ++ rest) :
    Silent (declarationAt? name) p (methods.flatMap MethodSource.text) :=
  silent_flatMap p methods _ rest text fun m _ q more ahead => silent_method q m more ahead

end Silence

section Blocks

/-- The lines of an interface, cut where its declaration begins, at the parenthesis that follows, and where
its body begins and ends. -/
theorem InterfaceSource.text_cut (d : InterfaceSource) : ∃ words inner,
    d.text = 'i' :: ((words ++ ['(']) ++ ((inner ++ ['\n']) ++
      (d.methods.flatMap MethodSource.text ++ (d.ending ++ ['\n'])))) ∧
    '(' ∉ words ∧ (∀ bs, bs <:+ words → introduces bs = false) ∧ '(' ∉ inner := by
  obtain ⟨words, wordsCut, notInWords, plain⟩ : ∃ words, introduction = 'i' :: (words ++ ['(', '"']) ∧
      '(' ∉ words ∧ ∀ bs ∈ words.tails, introduces bs = false :=
    ⟨"nterface DX_DECLARE_INTERFACE".toList, by decide, by decide, by decide⟩
  have openingCut : opening = ['\n', '\x7b'] ++ ['\n'] := by decide
  have outside (c : Char) (inClause : c ∈ d.clause) : c ≠ '(' := by
    rintro rfl
    rcases List.mem_append.mp inClause with front | inBase
    · rcases List.mem_append.mp front with inName | inDerivation
      · exact d.name.not_mem '(' (by decide) inName
      · exact absurd inDerivation (by decide)
    · exact d.base.not_mem '(' (by decide) inBase
  refine ⟨words, '"' :: (d.guid.text ++ (['"', ')', ' '] ++ (d.clause ++ ['\n', '\x7b']))), ?_, notInWords,
    fun bs ending => plain bs ((List.mem_tails _ _).mpr ending), ?_⟩
  · simp [text, declaration, tag, body, wordsCut, openingCut]
  · intro held
    rcases List.mem_cons.mp held with quote | further
    · exact absurd quote (by decide)
    rcases List.mem_append.mp further with inGuid | further
    · exact (d.guid.chars '(' inGuid).2.2 rfl
    rcases List.mem_append.mp further with closed | further
    · exact absurd closed (by decide)
    rcases List.mem_append.mp further with inClause | opened
    · exact outside '(' inClause rfl
    · exact absurd opened (by decide)

/-- The lines of an interface go on behind its declaration with the end of the line. -/
theorem InterfaceSource.text_declaration (d : InterfaceSource) (rest : List Char) :
    ∃ more, d.text ++ rest = d.declaration ++ '\n' :: more := by
  have openingCut : opening = ['\n', '\x7b', '\n'] := by decide
  refine ⟨'\x7b' :: '\n' :: (d.methods.flatMap MethodSource.text ++ (d.ending ++ ('\n' :: rest))), ?_⟩
  simp [text, body, openingCut]

/-- Within the lines of an interface only its own name is declared, and only where they begin. -/
theorem silent_interface (name : Identifier) (p : Place) (d : InterfaceSource) (rest : List Char)
    (text : p.rest = d.text ++ rest) (bounded : holdsWord p.before = false)
    (other : lowerString name.text ≠ lowerString d.name.text) :
    Silent (declarationAt? name.text.toList) p d.text := by
  obtain ⟨words, inner, cut, notInWords, plain, notInInner⟩ := d.text_cut
  have here : declarationAt? name.text.toList p = none := by
    obtain ⟨more, split⟩ := d.text_declaration rest
    rw [declarationAt?_written name p d more (text.trans split) bounded, if_neg other]
  have notInEnding : '(' ∉ d.ending := by
    intro held
    rcases List.mem_append.mp held with inWords | inName
    · exact absurd inWords (by decide)
    · exact d.name.not_mem '(' (by decide) inName
  rw [cut] at text ⊢
  apply silent_cons p 'i' _ here
  have afterFirst := past_rest p ['i'] _ text
  change (p.past ['i']).rest = _ ++ rest at afterFirst
  rw [List.append_assoc] at afterFirst
  apply silent_append_ahead _ _ _ rest afterFirst
  · exact silent_before_parenthesis _ words _ afterFirst notInWords plain
  intro q afterWords
  rw [List.append_assoc] at afterWords
  apply silent_append_ahead q _ _ rest afterWords
  · exact silent_before_line_end q inner _ afterWords notInInner
  intro r afterInner
  rw [List.append_assoc] at afterInner
  apply silent_append_ahead r _ _ rest afterInner
  · exact silent_methods r d.methods _ afterInner
  intro s afterMethods
  exact silent_before_line_end s d.ending rest afterMethods notInEnding

/-- The lines of an interface end a line. -/
theorem past_text_before (p : Place) (d : InterfaceSource) : (p.past d.text).before = some '\n' :=
  past_before p _ '\n' List.getLast?_concat

/-- No word ends where the lines of an interface begin, whatever interfaces stand before it. -/
theorem past_interfaces_bounded (p : Place) (interfaces : List InterfaceSource)
    (bounded : holdsWord p.before = false) :
    holdsWord (p.past (textOfInterfaces interfaces)).before = false := by
  induction interfaces generalizing p with
  | nil => simpa [textOfInterfaces] using bounded
  | cons d rest inductionHypothesis =>
    have feed : holdsWord (p.past d.text).before = false := by
      rw [past_text_before]
      decide
    rw [textOfInterfaces, List.flatMap_cons, ← past_append]
    exact inductionHypothesis (p.past d.text) feed

/-- Within the lines of some interfaces no name but theirs is declared. -/
theorem silent_interfaces (name : Identifier) (p : Place) (interfaces : List InterfaceSource)
    (rest : List Char) (text : p.rest = textOfInterfaces interfaces ++ rest)
    (bounded : holdsWord p.before = false)
    (others : ∀ d ∈ interfaces, lowerString name.text ≠ lowerString d.name.text) :
    Silent (declarationAt? name.text.toList) p (textOfInterfaces interfaces) := by
  induction interfaces generalizing p with
  | nil => exact silent_nil p
  | cons d interfaces inductionHypothesis =>
    rw [textOfInterfaces, List.flatMap_cons, List.append_assoc] at text
    rw [textOfInterfaces, List.flatMap_cons]
    have feed : holdsWord (p.past d.text).before = false := by
      rw [past_text_before]
      decide
    have first := silent_interface name p d _ text bounded (others d List.mem_cons_self)
    have further := inductionHypothesis (p.past d.text) (past_rest p _ _ text) feed
      fun e member => others e (List.mem_cons_of_mem d member)
    exact silent_append p _ _ first further

/-- The declaration of an interface whose lines begin at an offset. -/
def InterfaceSource.declaredAt (d : InterfaceSource) (start : Nat) : Declaration :=
  ⟨start, start + d.declaration.length, d.name.text, formatIid (String.ofList d.guid.text),
    .declarative d.base.text⟩

/-- In a written header the first declaration of a name is that of the interface with this name up to
case. -/
theorem firstDeclaration?_written (name : Identifier) (before after : List InterfaceSource)
    (d : InterfaceSource) (same : lowerString name.text = lowerString d.name.text)
    (others : ∀ e ∈ before, lowerString name.text ≠ lowerString e.name.text) :
    firstDeclaration? name.text (textOfInterfaces (before ++ d :: after)) =
      some (d.declaredAt (textOfInterfaces before).length) := by
  have split : textOfInterfaces (before ++ d :: after) =
      textOfInterfaces before ++ (d.text ++ textOfInterfaces after) := by
    rw [textOfInterfaces, List.flatMap_append, List.flatMap_cons]
    rfl
  have open_ : holdsWord (Place.start (textOfInterfaces before ++ (d.text ++ textOfInterfaces after))).before =
      false := rfl
  have silent := silent_interfaces name _ before _ rfl open_ others
  have bounded := past_interfaces_bounded _ before open_
  have ahead := past_rest (Place.start (textOfInterfaces before ++ (d.text ++ textOfInterfaces after))) _ _ rfl
  obtain ⟨more, declared⟩ := d.text_declaration (textOfInterfaces after)
  have here := declarationAt?_written name _ d more (ahead.trans declared) bounded
  rw [if_pos same] at here
  rw [firstDeclaration?, split, firstSuccess, firstOnward_past _ _ _ rfl silent,
    firstOnward_of_some _ _ _ here]
  simp [InterfaceSource.declaredAt, Place.start]

end Blocks

end ComLayout.Header
