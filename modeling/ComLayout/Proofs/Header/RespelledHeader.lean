import ComLayout.Proofs.Header.BaseRespelling
import ComLayout.Proofs.Header.FirstDeclaration
import ComLayout.Proofs.Header.ScanOutcome

/-!
# A header with a respelled base

What is read of a header either keeps clear of the base, or reads it as the base of a declaration, or begins in it
with a keyword. Where neither spelling gives rise to a keyword, the respelled header declares the same interfaces in
the same places, with the same methods and the same bases, but for this one.
-/

namespace ComLayout.Header

open Text Place

namespace BaseRespelling

variable {r : BaseRespelling} {pre cs as bs post pre₂ post₂ : List Char}

section Declarations

/-- A character that is neither white space nor part of a word shields what stands behind it. -/
theorem shielded_of_last {c : Char} (last : pre.getLast? = some c) (notWord : isWord c = false)
    (notBlank : isBlank c = false) : Shielded pre := by
  obtain ⟨stem, rfl⟩ := List.getLast?_eq_some_iff.mp last
  refine ⟨stem, c, [], rfl, by simp [Blanks], notBlank, ?_, .inr notWord⟩
  rintro rfl
  exact absurd notWord (by decide)

/-- Also behind white space a piece is shielded. -/
theorem Shielded.append {gap : List Char} (shielded : Shielded pre) (blanks : Blanks gap) :
    Shielded (pre ++ gap) := by
  obtain ⟨stem, c, gap₂, rfl, blanks₂, notBlank, other, apart⟩ := shielded
  refine ⟨stem, c, gap₂ ++ gap, by simp, ?_, notBlank, other, apart.imp_left (by simp_all)⟩
  exact fun d held => (List.mem_append.mp held).elim (blanks₂ d) (blanks d)

/-- White space behind another keyword than that of a base shields what stands behind it. -/
theorem shielded_behind_word {c : Char} {gap : List Char} (last : pre.getLast? = some c) (other : c ≠ 'c')
    (notBlank : isBlank c = false) (blanks : Blanks gap) (some_ : gap ≠ []) : Shielded (pre ++ gap) := by
  obtain ⟨stem, rfl⟩ := List.getLast?_eq_some_iff.mp last
  exact ⟨stem, c, gap, by simp, blanks, notBlank, other, .inl some_⟩

/-- A quoted GUID is kept. -/
theorem keeps_quotedGuid {guid : Guid} (quoted : QuotedGuid guid cs) : r.Keeps pre cs post := by
  obtain ⟨blank, blankBehind⟩ := quoted
  refine keeps_append (keeps_append (keeps_append (keeps_append (keeps_of_blanks blank) ?_) ?_) ?_)
    (keeps_append (keeps_of_blanks blankBehind) ?_)
  · exact keeps_of_plain (by decide)
  · exact keeps_of_shielded (solid_guid guid)
      (shielded_of_last (c := '"') (by simp) (by decide) (by decide))
  · exact keeps_of_plain (by decide)
  · exact keeps_of_plain (by decide)

/-- What stands behind a quoted GUID is shielded by its parenthesis. -/
theorem shielded_of_quotedGuid {guid : Guid} (quoted : QuotedGuid guid cs) : Shielded (pre ++ cs) := by
  obtain ⟨-, -⟩ := quoted
  refine shielded_of_last (c := ')') ?_ (by decide) (by decide)
  rw [← List.append_assoc, ← List.append_assoc]
  exact List.getLast?_concat

/-- The head of a classic declaration is kept. -/
theorem keeps_classicHead {name written : List Char} {guid : Guid} (solid : Solid name)
    (heads : ClassicHead name written guid cs) : r.Keeps pre cs post := by
  obtain ⟨quoted, ends, gaps, alike⟩ := heads
  have keyword : "MIDL_INTERFACE(".toList = "MIDL_INTERFACE".toList ++ ['('] := rfl
  rw [keyword]
  refine keeps_append (keeps_append (keeps_append (keeps_append ?_ ?_) (keeps_quotedGuid quoted)) ?_)
    (keeps_append (keeps_of_blanks (blanks_of_gaps gaps)) ?_)
  · exact keeps_of_wordRun ⟨by decide, by decide⟩ rfl (r.free.ends _ (by simp))
  · exact keeps_of_plain (by decide)
  · exact keeps_of_blanks (blanks_lineEnd ends)
  · refine keeps_of_shielded (solid_of_alike solid alike) ?_
    rw [← List.append_assoc, ← List.append_assoc]
    exact ((shielded_of_quotedGuid quoted).append (blanks_lineEnd ends)).append (blanks_of_gaps gaps)

/-- The head of a declarative declaration is kept. -/
theorem keeps_declarativeHead {name written : List Char} {guid : Guid} (solid : Solid name)
    (heads : DeclarativeHead name written guid cs) (outside : holdsWord pre.getLast? = false) :
    r.Keeps pre cs post := by
  obtain ⟨gaps, apart, tagged, quoted, blanks, alike⟩ := heads
  refine keeps_append (keeps_append (keeps_append (keeps_append ?_ (keeps_of_blanks (blanks_of_gaps gaps)))
    (keeps_append ?_ ?_)) (keeps_quotedGuid quoted)) (keeps_append (keeps_of_blanks blanks) ?_)
  · refine keeps_of_word ⟨by decide, by decide⟩ outside ?_ fun same => r.free.whole (by simp [same])
    obtain ⟨c, gap, rfl⟩ := List.exists_cons_of_ne_nil apart
    exact isWord_of_isBlank c (blanks_of_gaps gaps c List.mem_cons_self)
  · refine keeps_of_shielded (solid_of_wordRun (wordRun_of_declareTag tagged)) ?_
    rw [← List.append_assoc]
    exact shielded_behind_word (c := 'e') (by simp) (by decide) (by decide) (blanks_of_gaps gaps) apart
  · exact keeps_of_plain (by decide)
  · refine keeps_of_shielded (solid_of_alike solid alike) ?_
    rw [← List.append_assoc, ← List.append_assoc]
    exact (shielded_of_quotedGuid quoted).append blanks

/-- The clause between a name and its base is kept. -/
theorem keeps_declarativeClause (derives : DeclarativeClause cs) : r.Keeps pre cs post := by
  obtain ⟨blanks, blanks₂, blanks₃, -⟩ := derives
  refine keeps_append (keeps_append (keeps_append (keeps_of_blanks blanks) (keeps_of_plain (by decide)))
    (keeps_append (keeps_of_blanks blanks₂) ?_)) (keeps_of_blanks blanks₃)
  refine keeps_of_shielded (by decide) (Shielded.append ?_ blanks₂)
  exact shielded_of_last (c := ':') (by simp) (by decide) (by decide)

/-- No word ends right before the base that follows a clause. -/
theorem holdsWord_of_clause (derives : DeclarativeClause cs) : holdsWord (pre ++ cs).getLast? = false := by
  obtain @⟨_, _, blank₃, _, _, blanks₃, apart⟩ := derives
  rw [← List.append_assoc, List.getLast?_append_of_ne_nil _ apart, List.getLast?_eq_some_getLast apart]
  exact isWord_of_isBlank _ (blanks₃ _ (List.getLast_mem apart))

/-- Where the base of a declaration stands, the respelled text holds it as it is, or the other spelling of the one
that is respelled. -/
theorem Beside.base (beside : r.Beside pre (cs ++ post) pre₂ post₂) (word : WordRun cs)
    (starts : holdsWord pre.getLast? = false) (longest : holdsWord post.head? = false) :
    ∃ ds rest, post₂ = ds ++ rest ∧ Respelled cs ds ∧ r.Beside (pre ++ cs) post (pre₂ ++ ds) rest ∧
      (ds = cs ∨ cs = r.base ∧ ds = r.other) := by
  obtain ⟨ds, rest, rfl, same, onward⟩ := beside.piece
  refine ⟨ds, rest, rfl, same, onward, ?_⟩
  by_cases begins : r.Begins pre cs post
  · obtain ⟨rfl, behind⟩ := eq_of_begins starts begins
    obtain rfl := longest_unique word.2 longest r.word.2 r.longest behind
    have split₂ : r.front ++ (r.other ++ r.back) = pre₂ ++ (ds ++ rest) := beside.respelledText
    obtain ⟨-, behind₂⟩ := List.append_inj split₂ beside.before.length_eq
    exact .inr ⟨rfl, (List.append_inj behind₂ (r.respelled.length_eq.symm.trans same.length_eq)).1.symm⟩
  · obtain ⟨rest₂, split⟩ := keeps_of_solid (solid_of_wordRun word) begins _ _ beside
    exact .inl (List.append_inj split same.length_eq).1.symm

/-- A declaration of the respelled header is that of the header, but for a base that is the respelled one. -/
structure Counterpart (r : BaseRespelling) (d e : Declaration) : Prop where
  start : e.start = d.start
  stop : e.stop = d.stop
  name : e.name = d.name
  iid : e.iid = d.iid
  form : e.form = d.form ∨
    d.form = .declarative r.baseName ∧ e.form = .declarative r.otherName

/-- What the header declares under a name without white space, the respelled header declares in the same place. -/
theorem exists_counterpart {name : List Char} (solid : Solid name) {d : Declaration}
    (declares : Declares name r.text d) : ∃ e, Declares name r.respelledText e ∧ r.Counterpart d e := by
  cases declares with
  | @classic front head back written guid split heads bounded =>
    obtain ⟨front₂, rest, beside⟩ := exists_beside split
    obtain ⟨back₂, rfl, onward⟩ := (keeps_classicHead solid heads).onward beside
    have length := beside.before.length_eq
    refine ⟨_, .classic beside.respelledText heads (boundary_respelled onward.before onward.behind bounded), ?_⟩
    exact ⟨length.symm, by simp [length], rfl, rfl, .inl rfl⟩
  | @classicDerived front head clause base back written guid split heads bounded derives word =>
    obtain ⟨front₂, rest, beside⟩ := exists_beside split
    obtain ⟨rest, rfl, onward⟩ := (keeps_classicHead solid heads).onward beside
    obtain ⟨rest, rfl, further⟩ :=
      (keeps_declarativeClause (declarativeClause_of_classic derives)).onward onward
    obtain ⟨base₂, back₂, rfl, same, last⟩ := further.piece
    have length := beside.before.length_eq
    have bounded₂ := boundary_respelled onward.before onward.behind bounded
    refine ⟨_, .classicDerived beside.respelledText heads bounded₂ derives (wordRun_respelled same word), ?_⟩
    exact ⟨length.symm, by simp [length, same.length_eq], rfl, rfl, .inl rfl⟩
  | @declarative front head clause base back written guid split outside heads bounded derives word longest =>
    obtain ⟨front₂, rest, beside⟩ := exists_beside split
    obtain ⟨rest, rfl, onward⟩ := (keeps_declarativeHead solid heads outside).onward beside
    obtain ⟨rest, rfl, further⟩ := (keeps_declarativeClause derives).onward onward
    obtain ⟨base₂, back₂, rfl, same, last, either⟩ := further.base word (holdsWord_of_clause derives) longest
    have length := beside.before.length_eq
    have bounded₂ := boundary_respelled onward.before onward.behind bounded
    have outside₂ := (holdsWord_getLast?_respelled beside.before).symm.trans outside
    have longest₂ := (holdsWord_head?_respelled last.behind).symm.trans longest
    refine ⟨_, .declarative beside.respelledText outside₂ heads bounded₂ derives (wordRun_respelled same word)
      longest₂, ?_⟩
    refine ⟨length.symm, by simp [length, same.length_eq], rfl, rfl, ?_⟩
    exact either.imp (fun kept => by rw [kept]) fun ⟨old, new⟩ => by rw [old, new]; exact ⟨rfl, rfl⟩

end Declarations

section Scans

variable {grammar : Grammar} {name : List Char}

/-- Where a word begins between boundaries, at the base or within it, it begins at the base. -/
theorem eq_of_begins_bounded (bounded : Boundary pre (cs ++ post)) (begins : r.Begins pre cs post) :
    pre = r.front ∧ cs ++ post = r.base ++ r.back := by
  refine eq_of_begins ?_ begins
  obtain ⟨skipped, left, -, inBase, some_, same⟩ := begins
  obtain ⟨c, left, rfl⟩ := List.exists_cons_of_ne_nil some_
  have word : isWord c = true := r.word.2 c (by simp [inBase])
  rw [Boundary, same] at bounded
  exact (isBoundary_word _ c word).mp bounded

/-- A whole word without white space stands in the respelled header where it stands in the header, unless it may
begin at the base. -/
theorem wholeWordAt_respelled {word : List Char} {i : Nat} (solid : Solid word)
    (other : ∀ behind, word ++ behind = r.base ++ r.back → Boundary (r.front ++ word) behind → False)
    (stands : WholeWordAt r.text word i) : WholeWordAt r.respelledText word i := by
  obtain ⟨front, back, split, rfl, begins, ends⟩ := stands
  obtain ⟨front₂, rest, beside⟩ := exists_beside split
  have keeps : r.Keeps front word back := by
    refine keeps_of_solid solid fun starts => ?_
    obtain ⟨rfl, same⟩ := eq_of_begins_bounded begins starts
    exact other back same ends
  obtain ⟨back₂, rfl, onward⟩ := keeps.onward beside
  exact ⟨front₂, back₂, beside.respelledText, beside.before.length_eq.symm,
    boundary_respelled beside.before beside.behind begins, boundary_respelled onward.before onward.behind ends⟩

/-- The name of a struct stands in the respelled header where it stands in the header. -/
theorem struct_respelled {name : String} (solid : Solid name.toList) {i : Nat}
    (stands : WholeWordAt r.text (name ++ "Vtbl").toList i) :
    WholeWordAt r.respelledText (name ++ "Vtbl").toList i := by
  have solidStruct : Solid (name ++ "Vtbl").toList := by
    rw [String.toList_append]
    exact fun c held => (List.mem_append.mp held).elim (solid c) ((by decide : Solid "Vtbl".toList) c)
  refine wholeWordAt_respelled solidStruct (fun behind same _ => r.free.struct ?_) stands
  rw [← same, List.takeWhile_append_of_pos fun c held => by simp [solidStruct c held], String.toList_append]
  exact ⟨name.toList, _, rfl⟩

/-- The word that ends a struct stands in the respelled header where it stands in the header. -/
theorem structEnd_respelled {i : Nat} (stands : WholeWordAt r.text "END_INTERFACE".toList i) :
    WholeWordAt r.respelledText "END_INTERFACE".toList i := by
  refine wholeWordAt_respelled (by decide) (fun behind same ends => ?_) stands
  have stops : holdsWord behind.head? = false := by
    rw [Boundary, List.getLast?_append_of_ne_nil _ (by decide)] at ends
    simpa [Text.isBoundary, holdsWord, (by decide : isWord 'E' = true)] using ends
  have inBase := longest_unique r.word.2 r.longest (by decide) stops same.symm
  exact r.free.whole (by simp [inBase])

/-- A closing line stands in the respelled header where one stands in the header. The name may be spelled in another
case there, the white space before it may not. -/
theorem closesAt_respelled {i : Nat} (closes : ClosesAt r.text name i) : ClosesAt r.respelledText name i := by
  obtain ⟨front, line, back, split, rfl, begins, closing, ends⟩ := closes
  obtain @⟨indent, gap, gap₂, gap₃, gap₄, written, gaps, gaps₁, gaps₂, gaps₃, gaps₄, apart, alike⟩ := closing
  have blanks {cs : List Char} (gaps : Gaps cs) {front post : List Char} : r.Keeps front cs post :=
    keeps_of_blanks (blanks_of_gaps gaps)
  have keeps : r.Keeps front ((indent ++ "\x7d".toList) ++ (gap ++ ";".toList) ++ (gap₂ ++ "//".toList) ++
      (gap₃ ++ "interface".toList)) (gap₄ ++ written ++ back) := by
    refine keeps_append (keeps_append (keeps_append (keeps_append (blanks gaps) ?_) (keeps_append (blanks gaps₁) ?_))
      (keeps_append (blanks gaps₂) ?_)) (keeps_append (blanks gaps₃) ?_)
    · exact keeps_of_plain (by decide)
    · exact keeps_of_plain (by decide)
    · exact keeps_of_plain (by decide)
    · refine keeps_of_shielded (by decide) (Shielded.append ?_ (blanks_of_gaps gaps₃))
      refine shielded_of_last (c := '/') ?_ (by decide) (by decide)
      rw [← List.append_assoc, ← List.append_assoc, List.getLast?_append_of_ne_nil _ (by decide)]
      rfl
  rw [List.append_assoc] at split
  obtain ⟨front₂, rest, beside⟩ := exists_beside split
  obtain ⟨rest, rfl, onward⟩ := keeps.onward beside
  obtain ⟨named, back₂, rfl, same, last⟩ := onward.piece
  obtain ⟨blank, written₂, rfl, gapSame, nameSame⟩ := same.append_left
  obtain rfl := gapSame.eq_of_plain (isAlpha_of_blanks (blanks_of_gaps gaps₄))
  have alike₂ := sameWord_trans alike (sameWord_of_lower (nameSame.map_eq caseBlind_lower))
  have closing₂ := ClosingLine.mk gaps gaps₁ gaps₂ gaps₃ gaps₄ apart alike₂
  have begins₂ := lineStart_respelled beside.before begins
  refine ⟨front₂, _, back₂, ?_, beside.before.length_eq.symm, begins₂, closing₂, ?_⟩
  · rw [beside.respelledText]
    simp only [List.append_assoc]
  · rw [← List.append_assoc]
    refine boundary_respelled last.before last.behind ?_
    rwa [List.append_assoc]

/-- The methods of an interface end in the respelled header where they end in the header. -/
theorem terminates_respelled {name : String} {i : Nat} (ends : Terminates r.text grammar name i) :
    Terminates r.respelledText grammar name i := by
  cases grammar with
  | classic => exact structEnd_respelled ends
  | declarative => exact closesAt_respelled ends

/-- The name of a method is kept. -/
theorem keeps_closedName (named : ClosedName name cs) (shielded : Shielded pre) : r.Keeps pre cs post := by
  obtain ⟨blank, word, blankBehind⟩ := named
  refine keeps_append (keeps_of_blanks blank) (keeps_append ?_ (keeps_append (keeps_of_blanks blankBehind) ?_))
  · exact keeps_of_shielded (solid_of_wordRun word) (shielded.append blank)
  · exact keeps_of_plain (by decide)

/-- A classic method is kept. -/
theorem keeps_classicMethod (method : ClassicMethod name cs) : r.Keeps pre cs post := by
  obtain ⟨blank, named, blankBehind⟩ := method
  refine keeps_append (keeps_append (keeps_append ?_ (keeps_append (keeps_of_blanks blank) ?_)) ?_)
    (keeps_append (keeps_of_blanks blankBehind) ?_)
  · refine keeps_of_wordRun ⟨by decide, by decide⟩ ?_ (r.free.ends _ (by simp))
    rename_i beforeStar _ _
    cases beforeStar with
    | nil => rfl
    | cons c beforeStar => exact isWord_of_isBlank c (blank c List.mem_cons_self)
  · exact keeps_of_plain (by decide)
  · refine keeps_closedName named (shielded_of_last (c := '*') ?_ (by decide) (by decide))
    rw [← List.append_assoc, ← List.append_assoc]
    exact List.getLast?_concat
  · exact keeps_of_plain (by decide)

/-- A respelled return type is a return type. -/
theorem returnTypeText_respelled (same : Respelled as bs) (returns : ReturnTypeText as) : ReturnTypeText bs := by
  have closed : CaseBlind fun c => c != ',' && c != '(' && c != ')' && c != '\n' := by decide +kernel
  obtain ⟨blank, some_, plain, blankBehind⟩ := returns
  obtain ⟨cs, behind, rfl, first, behindSame⟩ := same.append_left
  obtain ⟨before, type, rfl, beforeSame, typeSame⟩ := first.append_left
  refine .mk (forall_respelled caseBlind_isBlank beforeSame blank) ?_ ?_
    (forall_respelled caseBlind_isBlank behindSame blankBehind)
  · rintro rfl
    exact some_ (List.map_eq_nil_iff.mp typeSame)
  · have each := forall_respelled closed typeSame fun c held => by simpa [and_assoc] using plain c held
    intro c held
    simpa [and_assoc] using each c held

/-- A declarative method has a counterpart of the same name; its return type may be respelled. -/
theorem exists_declarativeMethod (method : DeclarativeMethod name cs) (outside : holdsWord pre.getLast? = false)
    (beside : r.Beside pre (cs ++ post) pre₂ post₂) : ∃ ds rest, post₂ = ds ++ rest ∧ Respelled cs ds ∧
      r.Beside (pre ++ cs) post (pre₂ ++ ds) rest ∧ DeclarativeMethod name ds := by
  obtain @⟨_, closed, announces, named⟩ := method
  cases announces with
  | plain =>
    have keeps : r.Keeps pre ("STDMETHOD".toList ++ (['('] ++ closed)) post := by
      refine keeps_append ?_ (keeps_append (keeps_of_plain (by decide)) (keeps_closedName named ?_))
      · exact keeps_of_word ⟨by decide, by decide⟩ outside rfl fun same => r.free.whole (by simp [same])
      · exact shielded_of_last (c := '(') (by simp) (by decide) (by decide)
    obtain ⟨rest, rfl, onward⟩ := keeps.onward beside
    exact ⟨_, rest, rfl, .refl _, onward, .mk .plain named⟩
  | @typed type returns =>
    have spelled (type : List Char) : "STDMETHOD".toList ++ ("_(".toList ++ (type ++ [',']) ++ closed) =
        "STDMETHOD_".toList ++ ['('] ++ (type ++ ([','] ++ closed)) := by simp
    have keeps {post : List Char} : r.Keeps pre ("STDMETHOD_".toList ++ ['(']) post :=
      keeps_append (keeps_of_word ⟨by decide, by decide⟩ outside rfl fun same => r.free.whole (by simp [same]))
        (keeps_of_plain (by decide))
    have keepsName {front : List Char} : r.Keeps front ([','] ++ closed) post :=
      keeps_append (keeps_of_plain (by decide))
        (keeps_closedName named (shielded_of_last (c := ',') (by simp) (by decide) (by decide)))
    rw [spelled, List.append_assoc, List.append_assoc type] at beside
    obtain ⟨rest, rfl, onward⟩ := keeps.onward beside
    obtain ⟨type₂, rest, rfl, same, further⟩ := onward.piece
    obtain ⟨rest, rfl, last⟩ := keepsName.onward further
    refine ⟨"STDMETHOD_".toList ++ ['('] ++ (type₂ ++ ([','] ++ closed)), rest, by simp, ?_, ?_, ?_⟩
    · rw [spelled]
      simp only [Respelled, List.map_append] at same ⊢
      rw [same]
    · simpa using last
    · rw [← spelled]
      exact .mk (.typed (returnTypeText_respelled same returns)) named

/-- A method occurs in the respelled header where it occurs in the header. -/
theorem occurs_respelled {o : MethodOccurrence} (occurs : Occurs r.text grammar o) :
    Occurs r.respelledText grammar o := by
  obtain ⟨front, cs, back, split, starts, stops, method⟩ := occurs
  obtain ⟨front₂, rest, beside⟩ := exists_beside split
  have length := beside.before.length_eq
  cases grammar with
  | classic =>
    obtain ⟨back₂, rfl, onward⟩ := (keeps_classicMethod method).onward beside
    exact ⟨front₂, cs, back₂, beside.respelledText, by omega, by simp_all, method⟩
  | declarative =>
    obtain ⟨outside, ended, method⟩ := method
    obtain ⟨ds, back₂, rfl, same, onward, method₂⟩ := exists_declarativeMethod method outside beside
    have outside₂ := (holdsWord_getLast?_respelled beside.before).symm.trans outside
    have stops₂ : (front₂ ++ ds).length = o.stop := by
      rw [← onward.before.length_eq, stops]
    exact ⟨front₂, ds, back₂, beside.respelledText, by omega, stops₂, outside₂,
      lineFeed_mem_respelled onward.behind ended, method₂⟩

/-- The respelled header is scanned as the header is. -/
theorem scanMethods_respelled {start : Nat} {name : String} (solid : Solid name.toList) :
    scanMethods r.text start grammar name = scanMethods r.respelledText start grammar name := by
  have taken (i : Nat) : lineFeeds (r.text.take i) = lineFeeds (r.respelledText.take i) := by
    apply lineFeeds_respelled
    rw [Respelled, List.map_take, List.map_take, r.respelled_text]
  exact scanMethods_congr r.respelled_text.length_eq
    (fun i => ⟨struct_respelled solid, struct_respelled (r := r.symm) solid⟩)
    (fun i => ⟨terminates_respelled, terminates_respelled (r := r.symm)⟩)
    (fun o => ⟨occurs_respelled, occurs_respelled (r := r.symm)⟩) taken

end Scans

section First

/-- What is read at an offset of the header has its counterpart at that offset of the respelled one. A longer
reading there would be the counterpart of a longer reading in the header. -/
theorem read_counterpart {name : List Char} (some_ : name ≠ []) (solid : Solid name) {d : Declaration}
    (beside : r.Beside pre post pre₂ post₂) (read : declarationAt? name (placeAt pre post) = some d) :
    ∃ e, declarationAt? name (placeAt pre₂ post₂) = some e ∧ r.Counterpart d e := by
  obtain ⟨declares, start⟩ := declares_of_declarationAt? some_ pre post d read
  obtain ⟨d₂, declares₂, counterpart⟩ := exists_counterpart solid (beside.text ▸ declares)
  obtain ⟨front, back, split, length, e, read₂, part⟩ := declarationAt?_of_declares some_ declares₂
  have startSame : front.length = pre₂.length := by
    rw [length, counterpart.start, start, beside.before.length_eq]
  obtain ⟨rfl, rfl⟩ := List.append_inj (split.symm.trans beside.respelledText) startSame
  obtain ⟨declaresE, startE⟩ := declares_of_declarationAt? some_ front back e read₂
  obtain ⟨d₃, declares₃, counterpart₃⟩ := exists_counterpart (r := r.symm) solid (split ▸ declaresE)
  obtain ⟨front₃, back₃, split₃, length₃, d₄, read₃, part₃⟩ := declarationAt?_of_declares some_ declares₃
  have startSame₃ : front₃.length = pre.length := by
    rw [length₃, counterpart₃.start, startE, ← beside.before.length_eq]
  obtain ⟨rfl, rfl⟩ := List.append_inj (split₃.symm.trans beside.text) startSame₃
  obtain rfl := Option.some.inj (read.symm.trans read₃)
  have same : d₂ = e := by
    refine part.eq ?_ ?_
    · rw [counterpart.start, start, startE, beside.before.length_eq]
    · rw [counterpart.stop, ← counterpart₃.stop]
      exact part₃.stop
  exact ⟨e, read₂, same ▸ counterpart⟩

variable {name : String} {d : Declaration}

/-- A name that the header does not declare is not declared by the respelled one. -/
theorem firstDeclaration?_eq_none_respelled (some_ : name.toList ≠ []) (solid : Solid name.toList)
    (nothing : firstDeclaration? name r.text = none) : firstDeclaration? name r.respelledText = none := by
  rw [firstDeclaration?_eq_none_iff some_] at nothing ⊢
  intro e declares
  obtain ⟨d, declares₂, -⟩ := exists_counterpart (r := r.symm) solid declares
  exact nothing d declares₂

/-- The first declaration of a name in the header has its counterpart as the first one in the respelled header. -/
theorem firstDeclaration?_counterpart (some_ : name.toList ≠ []) (solid : Solid name.toList)
    (declared : firstDeclaration? name r.text = some d) :
    ∃ e, firstDeclaration? name r.respelledText = some e ∧ r.Counterpart d e := by
  obtain ⟨front, back, split, read, least⟩ := read_of_firstDeclaration? some_ declared
  obtain ⟨front₂, back₂, beside⟩ := exists_beside split
  obtain ⟨e, read₂, counterpart⟩ := read_counterpart some_ solid beside read
  refine ⟨e, firstDeclaration?_of_read some_ beside.respelledText read₂ fun e₂ declares₂ => ?_, counterpart⟩
  obtain ⟨d₂, declares, counterpart₂⟩ := exists_counterpart (r := r.symm) solid declares₂
  rw [← beside.before.length_eq, ← counterpart₂.start]
  exact least d₂ declares

end First

end BaseRespelling

/-- The base of a declarative declaration stands behind its keyword and white space, with no word character behind
it. -/
theorem published_of_declares {name front back : List Char} {base : String} {d : Declaration}
    (declares : Declares name (front ++ (base.toList ++ back)) d) (form : d.form = .declarative base)
    (stop : d.stop = (front ++ base.toList).length) :
    (∃ stem gap, front = stem ++ 'c' :: gap ∧ Blanks gap ∧ gap ≠ []) ∧ holdsWord back.head? = false := by
  cases declares with
  | classic => simp at form
  | classicDerived => simp at form
  | @declarative before head clause base₂ rest written guid split _ _ _ derives _ longest =>
    obtain rfl := DeclarationForm.declarative.inj form
    rw [String.toList_ofList] at split stop
    rw [← List.append_assoc before, ← List.append_assoc (before ++ head)] at split
    have length : front.length = (before ++ head ++ clause).length := by
      simp only [List.length_append] at stop ⊢
      omega
    obtain ⟨rfl, behind⟩ := List.append_inj split length
    obtain rfl := List.append_cancel_left behind
    obtain @⟨blank, blank₂, blank₃, _, _, blanks₃, apart⟩ := derives
    refine ⟨⟨before ++ head ++ (blank ++ ":".toList) ++ (blank₂ ++ "publi".toList), blank₃, ?_, blanks₃, apart⟩,
      longest⟩
    simp

end ComLayout.Header
