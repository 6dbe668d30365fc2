import ComLayout.Proofs.Header.DeclarationGrammar

/-!
# The first declaration of a name

`locate` finds a declaration of a name exactly if the text has one. What it finds starts before all others, and
no other declaration starts at the same place but a shorter reading of it: the two grammars begin with different
letters, and within each grammar the GUID, the name and the base that are read at a place are the only ones.
-/

namespace ComLayout.Header

open Text Place

section Readers

variable {name : List Char}

/-- The reader of classic declarations accepts them. The clause is read if one stands there. -/
theorem classicAt?_iff (some_ : name ≠ []) (here : Place) (d : Declaration) :
    classicAt? name here = some d ↔
      ∃ guid written head p, ClassicHead name written guid head ∧ here.Behind head p ∧ p.isBoundary = true ∧
        d = ⟨here.offset, ((classicBase? p).getD p).offset, String.ofList written,
          formatIid (String.ofList guid.text), .classic⟩ := by
  have names (p : Place) (a : List Char × Place) := reach_findSome?_iff some_ (wholeName? name)
    (fun _ r read => ⟨r, read⟩) isBlank_of_isGap p a
  simp only [classicAt?, Option.bind_eq_bind, Option.bind_eq_some_iff, Prod.exists, Option.some.injEq,
    word?_iff_behind, quotedGuid?_iff, lineEnd?_iff, names, wholeName?_iff]
  constructor
  · rintro ⟨_, keyword, _, _, ⟨guid, rfl, quoted, identified, toGuid⟩, _, ⟨ended, ends, toLine⟩, written, p,
      ⟨gap, _, gaps, toName, alike, overName, bounded⟩, rfl⟩
    exact ⟨guid, written, _, p, .mk identified ends gaps alike,
      behind_trans (behind_trans (behind_trans keyword toGuid) toLine) (behind_trans toName overName), bounded, rfl⟩
  · rintro ⟨guid, written, _, p, ⟨identified, ends, gaps, alike⟩, stretch, bounded, rfl⟩
    obtain ⟨c, stretch, toName⟩ := (behind_append _ _ _ _).mp stretch
    obtain ⟨b, stretch, toLine⟩ := (behind_append _ _ _ _).mp stretch
    obtain ⟨a, keyword, toGuid⟩ := (behind_append _ _ _ _).mp stretch
    obtain ⟨m, toName, overName⟩ := (behind_append _ _ _ _).mp toName
    exact ⟨a, keyword, _, b, ⟨guid, rfl, _, identified, toGuid⟩, c, ⟨_, ends, toLine⟩, written, p,
      ⟨_, m, gaps, toName, alike, overName, bounded⟩, rfl⟩

/-- The reader of declarative declarations accepts them. -/
theorem declarativeAt?_iff (some_ : name ≠ []) (here : Place) (d : Declaration) :
    declarativeAt? name here = some d ↔ holdsWord here.before = false ∧
      ∃ guid written head p clause base q, DeclarativeHead name written guid head ∧ here.Behind head p ∧
        p.isBoundary = true ∧ DeclarativeClause clause ∧ WordRun base ∧ p.Behind (clause ++ base) q ∧
        holdsWord q.rest.head? = false ∧
        d = ⟨here.offset, q.offset, String.ofList written, formatIid (String.ofList guid.text),
          .declarative (String.ofList base)⟩ := by
  have names (p : Place) (a : List Char × List Char × Place) :=
    reach_findSome?_iff some_ (nameAndBase? name)
      (fun p r read => by
        obtain ⟨s, _, whole, _⟩ := (nameAndBase?_iff name p r.1 r.2.1 r.2.2).mp read
        exact ⟨_, whole⟩) (fun _ blank => blank) p a
  simp only [declarativeAt?, Option.bind_eq_bind, Option.bind_eq_some_iff, Prod.exists, Option.some.injEq,
    word?_iff_behind, quotedGuid?_iff, names, nameAndBase?_iff, wholeName?_iff, demand_eq_some, run]
  constructor
  · rintro ⟨p, ⟨bounded, rfl⟩, a, keyword, gap, b, apart, _, ⟨tagged, rfl⟩, c, opened, _, m,
      ⟨guid, rfl, quoted, identified, toGuid⟩, written, base, q, ⟨blank, n, blanks, toName, r, clause,
      ⟨alike, overName, ended⟩, derives, word, toBase, longest⟩, rfl⟩
    obtain ⟨gapSome, gaps, toGap, _⟩ := (run?_iff_behind _ _ _ _).mp apart
    obtain ⟨tag, tag_, toTag⟩ := (declareTag_iff b c).mp ⟨tagged, opened⟩
    refine ⟨?_, guid, written, _, r, clause, base, q, .mk gaps gapSome tag_ identified blanks alike, ?_, ended,
      derives, word, toBase, longest, rfl⟩
    · rw [Place.isBoundary, rest_of_behind keyword] at bounded
      exact (isBoundary_word p.before 'i' (by decide)).mp bounded
    · have toQuoted := behind_trans (behind_trans keyword toGap) toTag
      exact behind_trans (behind_trans toQuoted toGuid) (behind_trans toName overName)
  · rintro ⟨outside, guid, written, _, r, clause, base, q,
      @⟨gap, _, _, _, gaps, gapSome, tagged, identified, blanks, alike⟩, stretch, ended, derives, word, toBase,
      longest, rfl⟩
    obtain ⟨m, stretch, toName⟩ := (behind_append _ _ _ _).mp stretch
    obtain ⟨c, stretch, toGuid⟩ := (behind_append _ _ _ _).mp stretch
    obtain ⟨b, stretch, toTag⟩ := (behind_append _ _ _ _).mp stretch
    obtain ⟨a, keyword, toGap⟩ := (behind_append _ _ _ _).mp stretch
    obtain ⟨n, toName, overName⟩ := (behind_append _ _ _ _).mp toName
    obtain ⟨isTag, opened⟩ := (declareTag_iff b c).mpr ⟨_, tagged, toTag⟩
    have bounded : here.isBoundary = true := by
      rw [Place.isBoundary, rest_of_behind keyword]
      exact (isBoundary_word here.before 'i' (by decide)).mpr outside
    have apart : a.run? isGap = some (gap, b) := by
      have word := wordRun_of_declareTag tagged
      obtain ⟨t, ts, rfl⟩ := List.exists_cons_of_ne_nil word.1
      have notGap := isGap_of_isWord t (word.2 t List.mem_cons_self)
      exact run?_of_behind gapSome gaps toGap (rest_of_behind toTag) notGap
    exact ⟨here, ⟨bounded, rfl⟩, a, keyword, _, b, apart, _, ⟨isTag, rfl⟩, c, opened, _, m,
      ⟨guid, rfl, _, identified, toGuid⟩, written, base, q, ⟨_, n, blanks, toName, r, clause,
      ⟨alike, overName, ended⟩, derives, word, toBase, longest⟩, rfl⟩

end Readers

section Offsets

variable {name : List Char}

/-- A clause is read from where one stands, up to the end of its base or beyond. -/
theorem classicBase?_of_clause {clause base : List Char} {p r : Place} (derives : ClassicClause clause)
    (word : WordRun base) (behind : p.Behind (clause ++ base) r) :
    ∃ q, classicBase? p = some q ∧ r.offset ≤ q.offset := by
  have further := behind_skip r isWord
  have whole : WordRun (base ++ r.rest.takeWhile isWord) := by
    refine ⟨by simp [word.1], fun c held => ?_⟩
    exact (List.mem_append.mp held).elim (word.2 c) fun beyond => List.mem_takeWhile_imp beyond
  refine ⟨r.skip isWord, (classicBase?_iff p _).mpr ⟨clause, _, derives, whole, ?_, ?_⟩, ?_⟩
  · rw [← List.append_assoc]
    exact behind_trans behind further
  · rw [holdsWord_eq_any]
    exact skip_stops r isWord
  · rw [further.2, past_offset]
    exact Nat.le_add_right _ _

/-- What is read at a place is declared there. -/
theorem declares_of_declarationAt? (some_ : name ≠ []) (front back : List Char) (d : Declaration)
    (read : declarationAt? name (placeAt front back) = some d) :
    Declares name (front ++ back) d ∧ d.start = front.length := by
  rw [declarationAt?, Option.orElse_eq_orElse, Option.orElse_eq_or, Option.or_eq_some_iff] at read
  rcases read with classic | ⟨_, declarative⟩
  · obtain ⟨guid, written, head, p, heads, behind, bounded, rfl⟩ := (classicAt?_iff some_ _ _).mp classic
    obtain ⟨rest, rfl, rfl⟩ := (behind_placeAt _ _ _ _).mp behind
    have bounded := (isBoundary_placeAt _ _).mp bounded
    refine ⟨?_, placeAt_offset _ _⟩
    cases based : classicBase? (placeAt (front ++ head) rest) with
    | none => simpa using Declares.classic rfl heads bounded
    | some q =>
      obtain ⟨clause, base, derives, word, further, _⟩ := (classicBase?_iff _ _).mp based
      obtain ⟨rest, rfl, rfl⟩ := (behind_placeAt _ _ _ _).mp further
      rw [List.append_assoc clause] at bounded
      simpa using Declares.classicDerived (by simp) heads bounded derives word
  · obtain ⟨outside, guid, written, head, p, clause, base, q, heads, behind, bounded, derives, word, further,
      longest, rfl⟩ := (declarativeAt?_iff some_ _ _).mp declarative
    obtain ⟨rest, rfl, rfl⟩ := (behind_placeAt _ _ _ _).mp behind
    obtain ⟨rest, rfl, rfl⟩ := (behind_placeAt _ _ _ _).mp further
    have bounded := (isBoundary_placeAt _ _).mp bounded
    rw [placeAt_before] at outside
    rw [placeAt_rest] at longest
    rw [List.append_assoc clause] at bounded
    refine ⟨?_, placeAt_offset _ _⟩
    simpa using Declares.declarative (by simp) outside heads bounded derives word longest

/-- A declaration says no more than another one: all that is read is the same, but it may stop earlier. -/
structure PartOf (e d : Declaration) : Prop where
  name : e.name = d.name
  iid : e.iid = d.iid
  form : e.form = d.form
  stop : e.stop ≤ d.stop

/-- Of two declarations at one place, one that says no more and does not stop earlier is the other. -/
theorem PartOf.eq {e d : Declaration} (part : PartOf e d) (start : e.start = d.start) (stop : d.stop ≤ e.stop) :
    e = d := by
  have stops := Nat.le_antisymm part.stop stop
  obtain ⟨name, iid, form, -⟩ := part
  cases e
  cases d
  simp_all

/-- Where the text goes on with a classic declaration, it is read with the clause that follows. -/
theorem declarationAt?_of_classic (some_ : name ≠ []) {front head back written : List Char} {guid : Guid}
    (heads : ClassicHead name written guid head) (bounded : Boundary (front ++ head) back) :
    declarationAt? name (placeAt front (head ++ back)) =
      some ⟨front.length, ((classicBase? (placeAt (front ++ head) back)).getD (placeAt (front ++ head) back)).offset,
        String.ofList written, formatIid (String.ofList guid.text), .classic⟩ := by
  have behind := (behind_placeAt front (head ++ back) head _).mpr ⟨back, rfl, rfl⟩
  have read := (classicAt?_iff some_ _ _).mpr
    ⟨guid, written, head, _, heads, behind, (isBoundary_placeAt _ _).mpr bounded, rfl⟩
  rw [declarationAt?, read, placeAt_offset]
  rfl

/-- Where a declarative declaration stands, no classic one is read. -/
theorem classicAt?_of_declarative {front head back written : List Char} {guid : Guid}
    (heads : DeclarativeHead name written guid head) : classicAt? name (placeAt front (head ++ back)) = none := by
  obtain ⟨_, _, _, _, _, _⟩ := heads
  have unread (rest : List Char) : (placeAt front ('i' :: rest)).word? "MIDL_INTERFACE(" = none := by
    apply word?_other _ _ 'M' _ rfl
    simp
  simp [classicAt?, unread]

/-- What is declared in a text is read where it starts, itself or what it is a part of. -/
theorem declarationAt?_of_declares (some_ : name ≠ []) {text : List Char} {e : Declaration}
    (declares : Declares name text e) :
    ∃ front back, text = front ++ back ∧ front.length = e.start ∧
      ∃ d, declarationAt? name (placeAt front back) = some d ∧ PartOf e d := by
  cases declares with
  | @classic front head back written guid split heads bounded =>
    refine ⟨front, head ++ back, split, rfl, _, declarationAt?_of_classic some_ heads bounded, rfl, rfl, rfl, ?_⟩
    cases read : classicBase? (placeAt (front ++ head) back) with
    | none => simp
    | some q =>
      obtain ⟨clause, base, _, _, further, _⟩ := (classicBase?_iff _ _).mp read
      simp [further.2]
  | @classicDerived front head clause base back written guid split heads bounded derives word =>
    refine ⟨front, _, split, rfl, _, declarationAt?_of_classic some_ heads bounded, rfl, rfl, rfl, ?_⟩
    have behind := (behind_placeAt (front ++ head) (clause ++ (base ++ back)) (clause ++ base) _).mpr
      ⟨back, by simp, rfl⟩
    obtain ⟨q, read, further⟩ := classicBase?_of_clause derives word behind
    simpa [read] using further
  | @declarative front head clause base back written guid split outside heads bounded derives word longest =>
    have behind := (behind_placeAt front (head ++ (clause ++ (base ++ back))) head _).mpr ⟨_, rfl, rfl⟩
    have further := (behind_placeAt (front ++ head) (clause ++ (base ++ back)) (clause ++ base) _).mpr
      ⟨back, by simp, rfl⟩
    have read := (declarativeAt?_iff some_ (placeAt front (head ++ (clause ++ (base ++ back)))) _).mpr
      ⟨by simpa using outside, guid, written, head, _, clause, base, _, heads, behind,
        (isBoundary_placeAt _ _).mpr bounded, derives, word, further, by simpa using longest, rfl⟩
    have stop : (front ++ head ++ (clause ++ base)).length = (front ++ head ++ clause ++ base).length := by simp
    rw [placeAt_offset, placeAt_offset, stop] at read
    refine ⟨front, _, split, rfl, _, ?_, rfl, rfl, rfl, Nat.le_refl _⟩
    rw [declarationAt?, classicAt?_of_declarative heads, read]
    rfl

end Offsets

section First

/-- The declaration of a name that starts before all others, in its longest reading; nothing else is declared
where it starts. -/
structure FirstDeclared (name text : List Char) (d : Declaration) : Prop where
  declares : Declares name text d
  least : ∀ e, Declares name text e → d.start ≤ e.start
  alone : ∀ e, Declares name text e → e.start = d.start → PartOf e d

/-- The reader of declarations agrees with where they start. -/
theorem declarationAt?_agrees {name : List Char} (some_ : name ≠ []) (text : List Char) :
    AgreesWith (declarationAt? name) text fun i => ∃ d, Declares name text d ∧ d.start = i := by
  constructor
  · rintro front back rfl
    constructor
    · rintro ⟨d, read⟩
      exact ⟨d, declares_of_declarationAt? some_ front back d read⟩
    · rintro ⟨e, declares, start⟩
      obtain ⟨first, rest, split, length, d, read, _⟩ := declarationAt?_of_declares some_ declares
      obtain ⟨rfl, rfl⟩ := List.append_inj split (start.symm.trans length.symm)
      exact ⟨d, read⟩
  · rintro i ⟨e, declares, rfl⟩
    obtain ⟨front, back, rfl, length, _⟩ := declarationAt?_of_declares some_ declares
    rw [← length, List.length_append]
    exact Nat.le_add_right _ _

/-- A first success is that of the leftmost place. -/
theorem firstSuccess_eq_leftmost {α : Type} (read : Place → Option α) (text : List Char) :
    firstSuccess read text = (leftmost read ((places text).drop 0)).map (·.2) := by
  rw [firstSuccess, firstOnward_eq, leftmost, List.map_findSome?, List.drop_zero]
  congr 1
  funext p
  cases found : read p <;> simp [found]

variable {name : String} {text : List Char}

/-- No declaration is found exactly where the text declares none. -/
theorem firstDeclaration?_eq_none_iff (some_ : name.toList ≠ []) :
    firstDeclaration? name text = none ↔ ∀ d, ¬ Declares name.toList text d := by
  have agrees := declarationAt?_agrees some_ text
  rw [firstDeclaration?, firstSuccess_eq_leftmost, Option.map_eq_none_iff]
  constructor
  · intro nothing d declares
    exact leftmost_eq_none agrees 0 nothing d.start (Nat.zero_le _) ⟨d, declares, rfl⟩
  · intro nothing
    cases found : leftmost (declarationAt? name.toList) ((places text).drop 0) with
    | none => rfl
    | some first =>
      obtain ⟨p, d⟩ := first
      obtain ⟨-, front, back, rfl, rfl, read⟩ := leftmost_eq_some agrees 0 p d found
      exact absurd (declares_of_declarationAt? some_ front back d read).1 (nothing d)

/-- The declaration that is found is read where the text declares the name first. -/
theorem read_of_firstDeclaration? (some_ : name.toList ≠ []) {d : Declaration}
    (declared : firstDeclaration? name text = some d) :
    ∃ front back, text = front ++ back ∧ declarationAt? name.toList (placeAt front back) = some d ∧
      ∀ e, Declares name.toList text e → front.length ≤ e.start := by
  have agrees := declarationAt?_agrees some_ text
  rw [firstDeclaration?, firstSuccess_eq_leftmost, Option.map_eq_some_iff] at declared
  obtain ⟨⟨p, _⟩, found, rfl⟩ := declared
  obtain ⟨⟨_, _, least⟩, front, back, rfl, rfl, read⟩ := leftmost_eq_some agrees 0 p _ found
  refine ⟨front, back, rfl, read, fun e declares => ?_⟩
  rw [placeAt_offset] at least
  exact Nat.le_of_not_lt fun before => least e.start (Nat.zero_le _) before ⟨e, declares, rfl⟩

theorem declares_of_firstDeclaration? (some_ : name.toList ≠ []) {d : Declaration}
    (declared : firstDeclaration? name text = some d) : Declares name.toList text d := by
  obtain ⟨front, back, rfl, read, -⟩ := read_of_firstDeclaration? some_ declared
  exact (declares_of_declarationAt? some_ front back d read).1

/-- What is read where the text declares the name first is the declaration that is found. -/
theorem firstDeclaration?_of_read (some_ : name.toList ≠ []) {front back : List Char} {d : Declaration}
    (split : text = front ++ back) (read : declarationAt? name.toList (placeAt front back) = some d)
    (least : ∀ e, Declares name.toList text e → front.length ≤ e.start) : firstDeclaration? name text = some d := by
  subst split
  obtain ⟨declares, start⟩ := declares_of_declarationAt? some_ front back d read
  cases found : firstDeclaration? name (front ++ back) with
  | none => exact absurd declares ((firstDeclaration?_eq_none_iff some_).mp found d)
  | some first =>
    obtain ⟨front₂, back₂, split, readFirst, leastFirst⟩ := read_of_firstDeclaration? some_ found
    obtain ⟨declaresFirst, startFirst⟩ := declares_of_declarationAt? some_ front₂ back₂ first readFirst
    have length : front.length = front₂.length :=
      Nat.le_antisymm (startFirst ▸ least first (split ▸ declaresFirst)) (start ▸ leastFirst d declares)
    obtain ⟨rfl, rfl⟩ := List.append_inj split length
    exact readFirst.symm.trans read

/-- A name is located exactly where the text first declares it.

Without a name nothing is sought, without a declaration nothing is found, and what is found starts before all other
declarations. Of several readings that start at one offset, the longest is taken.

The search reads a declaration at each offset in turn and takes the first that is there. Each reading is a
declaration, and where one starts, one is read: of the white space before a name, which may belong to the name as
well, the longest stretch is tried first, and shorter ones only if there is no reading with that. -/
theorem locate_takes_first_declaration (name : String) (text : List Char) :
    match locate name text with
    | .error e => e = .nameRequired ∧ name = ""
    | .ok none => name ≠ "" ∧ ∀ d, ¬ Declares name.toList text d
    | .ok (some d) => name ≠ "" ∧ FirstDeclared name.toList text d := by
  by_cases empty : name = ""
  · subst empty
    exact ⟨rfl, rfl⟩
  · have some_ : name.toList ≠ [] := fun nothing => empty (String.toList_eq_nil_iff.mp nothing)
    rw [locate, if_neg (by simpa using empty)]
    cases found : firstDeclaration? name text with
    | none => exact ⟨empty, (firstDeclaration?_eq_none_iff some_).mp found⟩
    | some d =>
      obtain ⟨front, back, rfl, read, least⟩ := read_of_firstDeclaration? some_ found
      obtain ⟨declares, start⟩ := declares_of_declarationAt? some_ front back d read
      refine ⟨empty, declares, fun e other => start ▸ least e other, ?_⟩
      intro e other same
      obtain ⟨front₂, back₂, split, length, d₂, read₂, part⟩ := declarationAt?_of_declares some_ other
      obtain ⟨rfl, rfl⟩ := List.append_inj split (start.symm.trans (same.symm.trans length.symm))
      obtain rfl := Option.some.inj (read.symm.trans read₂)
      exact part

end First

end ComLayout.Header
