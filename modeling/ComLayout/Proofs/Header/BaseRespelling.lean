import ComLayout.Proofs.Header.DeclarationGrammar
import ComLayout.Proofs.Header.ScanBounds
import ComLayout.Proofs.Text.Respelling

/-!
# Respelling a base

The name of a base may be spelled in another letter case. It stands behind the keyword before it and white space,
which no other piece of the grammars does. So a piece of the header without white space keeps clear of the base, or
begins at it or within it: all other pieces stand in the respelled header as they do in the header.
-/

namespace ComLayout.Header

open Text Place

section Classes

variable {as bs : List Char}

/-- What is blind to case and holds throughout a text holds throughout its respellings. -/
theorem forall_respelled {cond : Char → Bool} (blind : CaseBlind cond) (same : Respelled as bs)
    (meets : ∀ c ∈ as, cond c = true) : ∀ c ∈ bs, cond c = true := by
  have each : ∀ value ∈ bs.map cond, value = true := by
    rw [← same.map_eq blind]
    simpa using meets
  simpa using each

theorem wordRun_respelled (same : Respelled as bs) (word : WordRun as) : WordRun bs := by
  refine ⟨?_, forall_respelled caseBlind_isWord same word.2⟩
  rintro rfl
  exact word.1 (List.map_eq_nil_iff.mp same)

theorem holdsWord_eq_map (c : Option Char) : holdsWord c = (c.map isWord).getD false := by cases c <;> rfl

theorem holdsWord_head?_respelled (same : Respelled as bs) : holdsWord as.head? = holdsWord bs.head? := by
  rw [holdsWord_eq_map, holdsWord_eq_map, ← List.head?_map, ← List.head?_map, same.map_eq caseBlind_isWord]

theorem holdsWord_getLast?_respelled (same : Respelled as bs) :
    holdsWord as.getLast? = holdsWord bs.getLast? := by
  rw [holdsWord_eq_map, holdsWord_eq_map, ← List.getLast?_map, ← List.getLast?_map, same.map_eq caseBlind_isWord]

/-- A boundary lies between respelled parts as it does between the parts. -/
theorem boundary_respelled {front front₂ back back₂ : List Char} (before : Respelled front front₂)
    (behind : Respelled back back₂) (bounded : Boundary front back) : Boundary front₂ back₂ := by
  rw [Boundary, Text.isBoundary] at bounded ⊢
  rwa [← holdsWord_getLast?_respelled before, ← holdsWord_head?_respelled behind]

/-- As many lines end in a text as in its respellings. -/
theorem lineFeeds_respelled (same : Respelled as bs) : lineFeeds as = lineFeeds bs := by
  have feed : CaseBlind (· == '\n') := by decide +kernel
  have counted (cs : List Char) : lineFeeds cs = (cs.map (· == '\n')).count true := by
    simp [lineFeeds, List.count, List.countP_map, Function.comp_def]
  rw [counted, counted, same.map_eq feed]

theorem lineFeed_mem_respelled (same : Respelled as bs) (held : '\n' ∈ as) : '\n' ∈ bs := by
  have positive : 0 < lineFeeds as := List.count_pos_iff.mpr held
  rw [lineFeeds_respelled same] at positive
  exact List.count_pos_iff.mp positive

/-- A line begins behind a part of a text as it does behind its respellings. -/
theorem lineStart_respelled (same : Respelled as bs) (begins : LineStart as) : LineStart bs := by
  rcases begins with rfl | last
  · exact .inl (List.map_eq_nil_iff.mp same.symm)
  · obtain ⟨front, rfl⟩ := List.getLast?_eq_some_iff.mp last
    obtain ⟨front₂, feed, rfl, -, feeds⟩ := same.append_left
    rw [← feeds.eq_of_plain (by decide)]
    exact .inr List.getLast?_concat

/-- White space is no letter. -/
theorem isAlpha_of_blanks {cs : List Char} (blanks : Blanks cs) : ∀ c ∈ cs, c.isAlpha = false := by
  intro c held
  have each : ∀ c, isBlank c = true → c.isAlpha = false := forall_blank (by decide +kernel)
  exact each c (blanks c held)

end Classes

/-- No white space throughout. -/
def Solid (cs : List Char) : Prop := ∀ c ∈ cs, isBlank c = false

instance (cs : List Char) : Decidable (Solid cs) := inferInstanceAs (Decidable (∀ c ∈ cs, isBlank c = false))

theorem solid_of_wordRun {cs : List Char} (word : WordRun cs) : Solid cs :=
  fun c held => isBlank_of_isWord c (word.2 c held)

/-- What is a name without white space up to case is without it. -/
theorem solid_of_alike {name written : List Char} (solid : Solid name) (alike : sameWord name written = true) :
    Solid written := by
  intro c held
  rw [Bool.eq_false_iff]
  intro blank
  obtain ⟨a, member, same⟩ := exists_of_sameWord alike held
  obtain rfl := eq_of_sameLetter_of_isBlank same blank
  rw [solid a member] at blank
  exact Bool.noConfusion blank

/-- A GUID is without white space. -/
theorem solid_guid (guid : Guid) : Solid guid.text := by
  have blankless (c : Char) (blank : isBlank c = true) : isHexDigit c = false ∧ c ≠ '-' := by
    revert c
    exact forall_blank (by decide +kernel)
  intro c held
  rw [Bool.eq_false_iff]
  intro blank
  obtain ⟨notDigit, notHyphen⟩ := blankless c blank
  have digit := guid.digits c (by simpa [Guid.text, notHyphen] using held)
  rw [notDigit] at digit
  exact Bool.noConfusion digit

/-- A text begins with one longest run of word characters. -/
theorem longest_unique {run run₂ rest rest₂ : List Char} (all : ∀ c ∈ run, isWord c = true)
    (stops : holdsWord rest.head? = false) (all₂ : ∀ c ∈ run₂, isWord c = true)
    (stops₂ : holdsWord rest₂.head? = false) (same : run ++ rest = run₂ ++ rest₂) : run = run₂ := by
  have longest {run rest : List Char} (all : ∀ c ∈ run, isWord c = true) (stops : holdsWord rest.head? = false) :
      (run ++ rest).takeWhile isWord = run := by
    rw [List.takeWhile_append_of_pos all]
    cases rest with
    | nil => simp
    | cons c rest => rw [List.takeWhile_cons_of_neg (by simpa [holdsWord] using stops), List.append_nil]
  rw [← longest all stops, same, longest all₂ stops₂]

theorem blanks_lineEnd {ended : List Char} (ends : LineEnd ended) : Blanks ended := by
  have feeds : Blanks "\n".toList ∧ Blanks "\r\n".toList := by decide
  cases ends with
  | feed gaps => exact fun c held => (List.mem_append.mp held).elim (blanks_of_gaps gaps c) (feeds.1 c)
  | returnFeed gaps => exact fun c held => (List.mem_append.mp held).elim (blanks_of_gaps gaps c) (feeds.2 c)

/-- The clause of a classic declaration is one of a declarative one. -/
theorem declarativeClause_of_classic {cs : List Char} (derives : ClassicClause cs) : DeclarativeClause cs := by
  obtain ⟨gaps, gaps₂, gaps₃, apart⟩ := derives
  exact .mk (blanks_of_gaps gaps) (blanks_of_gaps gaps₂) (blanks_of_gaps gaps₃) apart

/-- A base does not give rise to a keyword: it is none, it ends with none that may begin within a word, and with
what stands behind it up to the next white space it holds no name of a struct. -/
structure NoKeyword (base back : List Char) : Prop where
  whole : base ∉ ["interface".toList, "END_INTERFACE".toList, "STDMETHOD".toList, "STDMETHOD_".toList]
  ends : ∀ keyword ∈ ["MIDL_INTERFACE".toList, "STDMETHODCALLTYPE".toList], ¬ keyword <:+ base
  struct : ¬ "Vtbl".toList <:+: (base ++ back).takeWhile fun c => !isBlank c

/-- A header with the name of a base in it, behind its keyword and white space, and another spelling of the base. -/
structure BaseRespelling where
  front : List Char
  base : List Char
  other : List Char
  back : List Char
  published : ∃ stem gap, front = stem ++ 'c' :: gap ∧ Blanks gap ∧ gap ≠ []
  word : WordRun base
  longest : holdsWord back.head? = false
  respelled : Respelled base other
  free : NoKeyword base back
  freeOther : NoKeyword other back

namespace BaseRespelling

/-- The header as it is. -/
def text (r : BaseRespelling) : List Char := r.front ++ (r.base ++ r.back)

/-- The header with the other spelling. -/
def respelledText (r : BaseRespelling) : List Char := r.front ++ (r.other ++ r.back)

/-- Either spelling respells the other one. -/
def symm (r : BaseRespelling) : BaseRespelling :=
  { r with
    base := r.other
    other := r.base
    word := wordRun_respelled r.respelled r.word
    respelled := r.respelled.symm
    free := r.freeOther
    freeOther := r.free }

variable (r : BaseRespelling) {pre cs as bs post pre₂ post₂ : List Char}

/-- The base as a name. -/
def baseName : String := String.ofList r.base

/-- The other spelling as a name. -/
def otherName : String := String.ofList r.other

theorem respelled_names : Respelled r.baseName.toList r.otherName.toList := by
  rw [baseName, otherName, String.toList_ofList, String.toList_ofList]
  exact r.respelled

theorem respelled_text : Respelled r.text r.respelledText := by
  simp only [Respelled, text, respelledText, List.map_append]
  rw [r.respelled]

/-- Both texts are cut at one offset. -/
structure Beside (pre post pre₂ post₂ : List Char) : Prop where
  text : r.text = pre ++ post
  respelledText : r.respelledText = pre₂ ++ post₂
  before : Respelled pre pre₂
  behind : Respelled post post₂

/-- A piece of the header stands in the respelled one as it is. -/
def Keeps (pre cs post : List Char) : Prop :=
  ∀ pre₂ rest, r.Beside pre (cs ++ post) pre₂ rest → cs <+: rest

/-- A piece begins at the base or within it. -/
def Begins (pre cs post : List Char) : Prop :=
  ∃ skipped left, pre = r.front ++ skipped ∧ r.base = skipped ++ left ∧ left ≠ [] ∧ cs ++ post = left ++ r.back

/-- Before a piece stands a character that does not come before the base. -/
def Shielded (pre : List Char) : Prop :=
  ∃ stem c gap, pre = stem ++ c :: gap ∧ Blanks gap ∧ isBlank c = false ∧ c ≠ 'c' ∧ (gap ≠ [] ∨ isWord c = false)

variable {r}

section Pieces

/-- White space stands right before the base. -/
theorem blank_before_base (r : BaseRespelling) : ∃ c, r.front.getLast? = some c ∧ isBlank c = true := by
  obtain ⟨stem, gap, split, blanks, some_⟩ := r.published
  refine ⟨gap.getLast some_, ?_, blanks _ (List.getLast_mem some_)⟩
  have last := List.getLast?_eq_some_getLast some_
  rw [split, List.getLast?_append, List.getLast?_cons, last]
  rfl

/-- Each text can be cut where the other one is. -/
theorem exists_beside (split : r.text = pre ++ post) : ∃ pre₂ post₂, r.Beside pre post pre₂ post₂ := by
  have respelled := r.respelled_text
  rw [split] at respelled
  obtain ⟨pre₂, post₂, split₂, before, behind⟩ := respelled.append_left
  exact ⟨pre₂, post₂, split, split₂, before, behind⟩

/-- A piece has a respelled counterpart. -/
theorem Beside.piece (beside : r.Beside pre (cs ++ post) pre₂ post₂) :
    ∃ ds rest, post₂ = ds ++ rest ∧ Respelled cs ds ∧ r.Beside (pre ++ cs) post (pre₂ ++ ds) rest := by
  obtain ⟨ds, rest, rfl, same, behind⟩ := beside.behind.append_left
  refine ⟨ds, rest, rfl, same, ?_, ?_, ?_, behind⟩
  · rw [beside.text, List.append_assoc]
  · rw [beside.respelledText, List.append_assoc]
  · rw [Respelled, List.map_append, List.map_append, beside.before, same]

/-- Behind a piece that is kept both texts go on. -/
theorem Keeps.onward (keeps : r.Keeps pre cs post) (beside : r.Beside pre (cs ++ post) pre₂ post₂) :
    ∃ rest, post₂ = cs ++ rest ∧ r.Beside (pre ++ cs) post (pre₂ ++ cs) rest := by
  obtain ⟨rest, rfl⟩ := keeps _ _ beside
  obtain ⟨ds, further, split, same, onward⟩ := beside.piece
  obtain ⟨rfl, rfl⟩ := List.append_inj split same.length_eq
  exact ⟨rest, rfl, onward⟩

/-- Pieces in a row are kept as one. -/
theorem keeps_append (first : r.Keeps pre as (bs ++ post)) (second : r.Keeps (pre ++ as) bs post) :
    r.Keeps pre (as ++ bs) post := by
  intro pre₂ rest beside
  rw [List.append_assoc] at beside
  obtain ⟨further, rfl, onward⟩ := first.onward beside
  exact (List.prefix_append_right_inj as).mpr (second _ further onward)

/-- A piece without letters is kept. -/
theorem keeps_of_plain (plain : ∀ c ∈ cs, c.isAlpha = false) : r.Keeps pre cs post := by
  intro pre₂ rest beside
  obtain ⟨ds, further, rfl, same, _⟩ := beside.piece
  rw [same.eq_of_plain plain]
  exact List.prefix_append ds further

theorem keeps_of_blanks (blanks : Blanks cs) : r.Keeps pre cs post := keeps_of_plain (isAlpha_of_blanks blanks)

/-- A piece without white space is kept, unless it begins at the base or within it: white space stands right before
the base, so the piece does not reach over its first character. A piece that starts in front of the base ends there,
and one that stands behind the front stands behind the base. -/
theorem keeps_of_solid (solid : Solid cs) (outside : ¬ r.Begins pre cs post) : r.Keeps pre cs post := by
  intro pre₂ rest beside
  have length := beside.before.length_eq
  have other := r.respelled.length_eq
  have split : r.front ++ (r.base ++ r.back) = pre ++ (cs ++ post) := beside.text
  have split₂ : r.front ++ (r.other ++ r.back) = pre₂ ++ rest := beside.respelledText
  rcases List.append_eq_append_iff.mp split with ⟨skipped, rfl, inBase⟩ | ⟨ahead, inFront, behind⟩
  · obtain ⟨between, rfl, same⟩ : ∃ between, skipped = r.base ++ between ∧ r.back = between ++ (cs ++ post) := by
      rcases List.append_eq_append_iff.mp inBase with further | ⟨left, cut, same⟩
      · exact further
      · cases left with
        | nil => exact ⟨[], by simpa using cut.symm, same.symm⟩
        | cons c left => exact absurd ⟨skipped, c :: left, rfl, cut, by simp, same⟩ outside
    rw [same, ← List.append_assoc, ← List.append_assoc] at split₂
    obtain ⟨-, rfl⟩ := List.append_inj split₂ (by simpa [other] using length)
    exact List.prefix_append cs post
  · obtain ⟨between, rfl, -⟩ : ∃ between, ahead = cs ++ between ∧ post = between ++ (r.base ++ r.back) := by
      rcases List.append_eq_append_iff.mp behind with further | ⟨into, inPiece, same⟩
      · exact further
      · cases ahead with
        | nil =>
          refine absurd ⟨[], r.base, by simpa using inFront.symm, rfl, r.word.1, ?_⟩ outside
          simpa using behind
        | cons c ahead =>
          obtain ⟨d, last, blank⟩ := r.blank_before_base
          rw [inFront, List.getLast?_append_cons] at last
          have held : d ∈ cs := by
            rw [inPiece]
            exact List.mem_append_left into (List.mem_of_getLast? last)
          rw [solid d held] at blank
          exact absurd blank Bool.false_ne_true
    rw [inFront, List.append_assoc, List.append_assoc] at split₂
    obtain ⟨-, rfl⟩ := List.append_inj split₂ length
    exact List.prefix_append cs _

/-- Behind the end of a word a piece begins at the base, if it does so at all. -/
theorem eq_of_begins (starts : holdsWord pre.getLast? = false) (begins : r.Begins pre cs post) :
    pre = r.front ∧ cs ++ post = r.base ++ r.back := by
  obtain ⟨skipped, left, rfl, inBase, -, same⟩ := begins
  cases skipped using List.reverseRecOn with
  | nil => exact ⟨List.append_nil r.front, by rw [same, inBase, List.nil_append]⟩
  | append_singleton skipped d _ =>
    have inside : isWord d = true := r.word.2 d (by simp [inBase])
    rw [← List.append_assoc, List.getLast?_concat] at starts
    exact absurd (inside.symm.trans starts) (by decide)

/-- No word ends right before a shielded piece. -/
theorem holdsWord_of_shielded (shielded : Shielded pre) : holdsWord pre.getLast? = false := by
  obtain ⟨stem, c, gap, rfl, blanks, -, -, apart⟩ := shielded
  rw [List.getLast?_append_cons]
  cases gap with
  | nil => exact apart.resolve_left fun some_ => some_ rfl
  | cons d gap =>
    rw [List.getLast?_cons_cons, List.getLast?_eq_some_getLast (List.cons_ne_nil d gap)]
    exact isWord_of_isBlank _ (blanks _ (List.getLast_mem _))

/-- A shielded piece does not begin at the base: the nearest character before it that is no white space is
another one. -/
theorem not_begins_of_shielded (shielded : Shielded pre) : ¬ r.Begins pre cs post := by
  intro begins
  obtain ⟨atBase, -⟩ := eq_of_begins (holdsWord_of_shielded shielded) begins
  obtain ⟨stem, c, gap, split, blanks, notBlank, other, -⟩ := shielded
  obtain ⟨stem₂, gap₂, front, blanks₂, -⟩ := r.published
  have reversed := congrArg List.reverse (split.symm.trans (atBase.trans front))
  simp only [List.reverse_append, List.reverse_cons, List.append_assoc, List.singleton_append] at reversed
  refine other (stretch_unique reversed ?_ ?_).2
  · simpa using not_mem_of_blanks blanks₂ notBlank
  · simpa using not_mem_of_blanks blanks (by decide)

/-- A shielded piece without white space is kept. -/
theorem keeps_of_shielded (solid : Solid cs) (shielded : Shielded pre) : r.Keeps pre cs post :=
  keeps_of_solid solid (not_begins_of_shielded shielded)

/-- A word behind which no word goes on is kept, unless the base ends with it. -/
theorem keeps_of_wordRun (word : WordRun cs) (ends : holdsWord post.head? = false) (apart : ¬ cs <:+ r.base) :
    r.Keeps pre cs post := by
  refine keeps_of_solid (solid_of_wordRun word) fun begins => ?_
  obtain ⟨skipped, left, -, inBase, -, same⟩ := begins
  have leftWord : ∀ c ∈ left, isWord c = true := fun c held => r.word.2 c (by simp [inBase, held])
  obtain rfl := longest_unique word.2 ends leftWord r.longest same
  exact apart ⟨skipped, inBase.symm⟩

/-- A word that stands alone is kept, unless it is the base. -/
theorem keeps_of_word (word : WordRun cs) (starts : holdsWord pre.getLast? = false)
    (ends : holdsWord post.head? = false) (other : r.base ≠ cs) : r.Keeps pre cs post := by
  refine keeps_of_solid (solid_of_wordRun word) fun begins => ?_
  obtain ⟨-, same⟩ := eq_of_begins starts begins
  exact other (longest_unique r.word.2 r.longest word.2 ends same.symm)

end Pieces

end BaseRespelling

end ComLayout.Header
