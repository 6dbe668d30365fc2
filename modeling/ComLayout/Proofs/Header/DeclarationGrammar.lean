import ComLayout.Proofs.Header.ReadingBack
import ComLayout.Proofs.Header.Vocabulary

/-!
# The grammar of declarations

What may stand where an interface is declared, said as texts. The readers of both grammars accept exactly
these texts. A name may itself begin with white space, so the white space before it can be told from it only
by what follows: two readings of the same text that differ in where the name begins would leave no boundary
behind one of the names.
-/

namespace ComLayout.Header

open Text Place

/-- A GUID in quotes and the parenthesis that closes, with white space around both. -/
inductive QuotedGuid (guid : Guid) : List Char → Prop where
  | mk {before behind : List Char} (blank : Blanks before) (blankBehind : Blanks behind) :
      QuotedGuid guid ((before ++ "\"".toList) ++ guid.text ++ "\"".toList ++ (behind ++ ")".toList))

/-- The end of a line after gaps. -/
inductive LineEnd : List Char → Prop where
  | feed {gap : List Char} (gaps : Gaps gap) : LineEnd (gap ++ "\n".toList)
  | returnFeed {gap : List Char} (gaps : Gaps gap) : LineEnd (gap ++ "\r\n".toList)

/-- A classic declaration up to its name: a line with the GUID and a line that begins with the name. -/
inductive ClassicHead (name written : List Char) (guid : Guid) : List Char → Prop where
  | mk {quoted ended indent : List Char} (identified : QuotedGuid guid quoted) (ends : LineEnd ended)
      (gaps : Gaps indent) (alike : sameWord name written = true) :
      ClassicHead name written guid
        ("MIDL_INTERFACE(".toList ++ quoted ++ ended ++ (indent ++ written))

/-- The clause that may follow the name of a classic declaration, up to the name of the base. -/
inductive ClassicClause : List Char → Prop where
  | mk {gap gap₂ gap₃ : List Char} (gaps : Gaps gap) (gaps₂ : Gaps gap₂) (gaps₃ : Gaps gap₃)
      (apart : gap₃ ≠ []) : ClassicClause ((gap ++ ":".toList) ++ (gap₂ ++ "public".toList) ++ gap₃)

/-- A word that introduces the GUID of a declarative declaration. -/
inductive DeclareTag : List Char → Prop where
  | declares {front : List Char} (word : ∀ c ∈ front, isWord c = true) :
      DeclareTag (front ++ "DECLARE_INTERFACE".toList)
  | uuid : DeclareTag "DECLSPEC_UUID".toList

/-- A declarative declaration up to its name. -/
inductive DeclarativeHead (name written : List Char) (guid : Guid) : List Char → Prop where
  | mk {gap tag quoted blank : List Char} (gaps : Gaps gap) (apart : gap ≠ []) (tagged : DeclareTag tag)
      (identified : QuotedGuid guid quoted) (blanks : Blanks blank) (alike : sameWord name written = true) :
      DeclarativeHead name written guid
        ("interface".toList ++ gap ++ (tag ++ "(".toList) ++ quoted ++ (blank ++ written))

/-- The clause of a declarative declaration, up to the name of the base. -/
inductive DeclarativeClause : List Char → Prop where
  | mk {blank blank₂ blank₃ : List Char} (blanks : Blanks blank) (blanks₂ : Blanks blank₂)
      (blanks₃ : Blanks blank₃) (apart : blank₃ ≠ []) :
      DeclarativeClause ((blank ++ ":".toList) ++ (blank₂ ++ "public".toList) ++ blank₃)

/-- A text declares a name: the declaration starts and stops where the grammar says, with the name as written
there, the GUID in braces, and the base as a longest run of word characters. A classic declaration may go on
with a clause or stop before it, and its base may be read in part. -/
inductive Declares (name text : List Char) : Declaration → Prop where
  | classic {front head back written : List Char} {guid : Guid} (split : text = front ++ (head ++ back))
      (heads : ClassicHead name written guid head) (bounded : Boundary (front ++ head) back) :
      Declares name text ⟨front.length, (front ++ head).length, String.ofList written,
        formatIid (String.ofList guid.text), .classic⟩
  | classicDerived {front head clause base back written : List Char} {guid : Guid}
      (split : text = front ++ (head ++ (clause ++ (base ++ back)))) (heads : ClassicHead name written guid head)
      (bounded : Boundary (front ++ head) (clause ++ (base ++ back))) (derives : ClassicClause clause)
      (word : WordRun base) :
      Declares name text ⟨front.length, (front ++ head ++ clause ++ base).length, String.ofList written,
        formatIid (String.ofList guid.text), .classic⟩
  | declarative {front head clause base back written : List Char} {guid : Guid}
      (split : text = front ++ (head ++ (clause ++ (base ++ back)))) (outside : holdsWord front.getLast? = false)
      (heads : DeclarativeHead name written guid head)
      (bounded : Boundary (front ++ head) (clause ++ (base ++ back))) (derives : DeclarativeClause clause)
      (word : WordRun base) (longest : holdsWord back.head? = false) :
      Declares name text ⟨front.length, (front ++ head ++ clause ++ base).length, String.ofList written,
        formatIid (String.ofList guid.text), .declarative (String.ofList base)⟩

/-- The base of a declarative declaration is a run of word characters. -/
theorem wordRun_of_declares {name text : List Char} {d : Declaration} {base : String}
    (declares : Declares name text d) (form : d.form = .declarative base) : WordRun base.toList := by
  cases declares with
  | classic => simp at form
  | classicDerived => simp at form
  | declarative _ _ _ _ _ word _ =>
    obtain rfl := DeclarationForm.declarative.inj form
    rwa [String.toList_ofList]

/-- A declaration carries a GUID in braces. -/
theorem exists_guid_of_declares {name text : List Char} {d : Declaration} (declares : Declares name text d) :
    ∃ guid : Guid, d.iid = formatIid (String.ofList guid.text) := by
  cases declares with
  | classic => exact ⟨_, rfl⟩
  | classicDerived => exact ⟨_, rfl⟩
  | declarative => exact ⟨_, rfl⟩

section Guids

/-- As many digits are read as stand there. -/
theorem hexRun?_iff (count : Nat) (p q : Place) :
    hexRun? count p = some q ↔
      ∃ cs, cs.length = count ∧ (∀ c ∈ cs, isHexDigit c = true) ∧ p.Behind cs q := by
  constructor
  · intro read
    induction count generalizing p with
    | zero =>
      obtain rfl := Option.some.inj read
      exact ⟨[], rfl, by simp, List.nil_prefix, (past_nil p).symm⟩
    | succ count inductionHypothesis =>
      rw [hexRun?.eq_def] at read
      cases text : p.rest with
      | nil => simp [text] at read
      | cons c rest =>
        simp only [text, after_eq_past p c rest text, Option.ite_none_right_eq_some] at read
        obtain ⟨digit, others⟩ := read
        obtain ⟨cs, length, digits, behind⟩ := inductionHypothesis _ others
        have first : p.Behind [c] (p.past [c]) := behind_of_rest text
        refine ⟨c :: cs, by simp [length], ?_, behind_trans first behind⟩
        simpa using ⟨digit, digits⟩
  · rintro ⟨cs, rfl, digits, behind⟩
    rw [hexRun?_digits p cs _ (rest_of_behind behind) digits, behind.2]

/-- A GUID is read where one stands. -/
theorem guidEnd?_iff (p q : Place) : guidEnd? p = some q ↔ ∃ guid : Guid, p.Behind guid.text q := by
  constructor
  · simp only [guidEnd?, Option.bind_eq_bind, Option.bind_eq_some_iff, hexRun?_iff, word?_iff_behind]
    rintro ⟨_, ⟨as, la, da, toA⟩, _, hyphen, _, ⟨bs, lb, db, toB⟩, _, hyphen₂, _, ⟨cs, lc, dc, toC⟩, _,
      hyphen₃, _, ⟨ds, ld, dd, toD⟩, _, hyphen₄, es, le, de, toE⟩
    have digits : ∀ c ∈ as ++ bs ++ cs ++ ds ++ es, isHexDigit c = true := by
      simp only [List.mem_append, or_imp, forall_and]
      exact ⟨⟨⟨⟨da, db⟩, dc⟩, dd⟩, de⟩
    have toFifth := behind_trans hyphen₄ toE
    have toFourth := behind_trans hyphen₃ (behind_trans toD toFifth)
    have toThird := behind_trans hyphen₂ (behind_trans toC toFourth)
    exact ⟨⟨as, bs, cs, ds, es, ⟨la, lb, lc, ld, le⟩, digits⟩,
      behind_trans toA (behind_trans hyphen (behind_trans toB toThird))⟩
  · rintro ⟨guid, behind⟩
    rw [guidEnd?_written p guid _ (rest_of_behind behind), behind.2]

/-- The GUID that stands at a place is read with the place behind it. -/
theorem guid?_iff (p : Place) (cs : List Char) (q : Place) :
    guid? p = some (cs, q) ↔ ∃ guid : Guid, guid.text = cs ∧ p.Behind guid.text q := by
  have taken (guid : Guid) (r : Place) (behind : p.Behind guid.text r) :
      p.rest.take (r.offset - p.offset) = guid.text := by
    rw [rest_of_behind behind, behind.2, past_offset, Nat.add_sub_cancel_left, List.take_left]
  simp only [guid?, Option.map_eq_some_iff, guidEnd?_iff, Prod.mk.injEq]
  constructor
  · rintro ⟨_, ⟨guid, behind⟩, rfl, rfl⟩
    exact ⟨guid, (taken guid _ behind).symm, behind⟩
  · rintro ⟨guid, rfl, behind⟩
    exact ⟨q, ⟨guid, behind⟩, taken guid q behind, rfl⟩

/-- A quoted GUID is read where one stands. -/
theorem quotedGuid?_iff (p : Place) (cs : List Char) (q : Place) :
    quotedGuid? p = some (cs, q) ↔
      ∃ guid : Guid, guid.text = cs ∧ ∃ quoted, QuotedGuid guid quoted ∧ p.Behind quoted q := by
  have quotes (p q : Place) := skip_word?_iff p isBlank "\"" q '"' [] rfl (by decide)
  have closes (p q : Place) := skip_word?_iff p isBlank ")" q ')' [] rfl (by decide)
  simp only [quotedGuid?, Option.bind_eq_bind, Option.bind_eq_some_iff, Prod.exists, Option.some.injEq,
    Prod.mk.injEq, quotes, closes, guid?_iff, word?_iff_behind]
  constructor
  · rintro ⟨_, ⟨before, blank, toQuote⟩, _, _, ⟨guid, rfl, toGuid⟩, _, toEnd, _, ⟨behind, blankBehind, toClose⟩,
      rfl, rfl⟩
    exact ⟨guid, rfl, _, .mk blank blankBehind,
      behind_trans (behind_trans (behind_trans toQuote toGuid) toEnd) toClose⟩
  · rintro ⟨guid, rfl, _, ⟨blank, blankBehind⟩, stretch⟩
    obtain ⟨c, stretch, toClose⟩ := (behind_append _ _ _ _).mp stretch
    obtain ⟨b, stretch, toEnd⟩ := (behind_append _ _ _ _).mp stretch
    obtain ⟨a, toQuote, toGuid⟩ := (behind_append _ _ _ _).mp stretch
    exact ⟨a, ⟨_, blank, toQuote⟩, _, b, ⟨guid, rfl, toGuid⟩, c, toEnd, q, ⟨_, blankBehind, toClose⟩, rfl, rfl⟩

end Guids

section Pieces

/-- The end of a line is read where it stands. -/
theorem lineEnd?_iff (p q : Place) : lineEnd? p = some q ↔ ∃ ended, LineEnd ended ∧ p.Behind ended q := by
  have feeds := skip_word?_iff p isGap "\n" q '\n' [] rfl (by decide)
  have returns := skip_word?_iff p isGap "\r\n" q '\r' ['\n'] rfl (by decide)
  simp only [lineEnd?, Option.orElse_eq_orElse, Option.orElse_eq_or, Option.or_eq_some_iff]
  rw [returns, feeds]
  constructor
  · rintro (⟨gap, gaps, behind⟩ | ⟨_, gap, gaps, behind⟩)
    · exact ⟨_, .returnFeed gaps, behind⟩
    · exact ⟨_, .feed gaps, behind⟩
  · rintro ⟨_, @⟨gap, gaps⟩ | @⟨gap, gaps⟩, behind⟩
    · have text : p.rest = gap ++ '\n' :: q.rest := by
        rw [rest_of_behind behind, List.append_assoc]
        rfl
      have skipped := skip_run p isGap gap '\n' _ text gaps (by decide)
      have other : (p.skip isGap).word? "\r\n" = none := by
        apply word?_other _ _ '\r' ['\n'] rfl
        rw [skipped, past_rest p gap _ text]
        simp
      exact .inr ⟨other, gap, gaps, behind⟩
    · exact .inl ⟨gap, gaps, behind⟩

/-- The words that introduce a GUID are read as such. -/
theorem isDeclareTag_iff (cs : List Char) (word : ∀ c ∈ cs, isWord c = true) :
    isDeclareTag cs = true ↔ DeclareTag cs := by
  simp only [isDeclareTag, Bool.or_eq_true, List.isSuffixOf_iff_suffix, beq_iff_eq]
  constructor
  · rintro (⟨front, rfl⟩ | rfl)
    · exact .declares fun c held => word c (List.mem_append_left _ held)
    · exact .uuid
  · rintro (@⟨front, _⟩ | _)
    · exact .inl (List.suffix_append front _)
    · exact .inr rfl

/-- A word that introduces a GUID is a run of word characters. -/
theorem wordRun_of_declareTag {cs : List Char} (tagged : DeclareTag cs) : WordRun cs := by
  obtain word | _ := tagged
  · have tail : ∀ c ∈ "DECLARE_INTERFACE".toList, isWord c = true := by decide
    refine ⟨by simp, fun c held => ?_⟩
    exact (List.mem_append.mp held).elim (word c) (tail c)
  · exact ⟨by decide, by decide⟩

/-- A word that introduces a GUID is read with the parenthesis behind it. -/
theorem declareTag_iff (p q : Place) :
    (isDeclareTag (p.rest.takeWhile isWord) = true ∧ (p.skip isWord).Behind "(".toList q) ↔
      ∃ tag, DeclareTag tag ∧ p.Behind (tag ++ "(".toList) q := by
  have inside : ∀ c ∈ p.rest.takeWhile isWord, isWord c = true := fun c held => List.mem_takeWhile_imp held
  constructor
  · rintro ⟨tagged, opened⟩
    exact ⟨_, (isDeclareTag_iff _ inside).mp tagged, behind_trans (behind_skip p isWord) opened⟩
  · rintro ⟨tag, tagged, behind⟩
    have word := wordRun_of_declareTag tagged
    obtain ⟨r, toTag, opened⟩ := (behind_append _ _ _ _).mp behind
    have text : p.rest = tag ++ '(' :: q.rest := by
      rw [rest_of_behind behind, List.append_assoc]
      rfl
    have longest : p.rest.takeWhile isWord = tag := by
      rw [text, List.takeWhile_append_of_pos word.2, List.takeWhile_cons_of_neg (by decide), List.append_nil]
    rw [longest, skip_run p isWord tag '(' _ text word.2 (by decide), ← toTag.2]
    exact ⟨(isDeclareTag_iff tag word.2).mpr tagged, opened⟩

end Pieces

section Names

/-- Where a name stands up to case, white space of one spelling is that of another one. -/
theorem blank_of_alike {name as bs : List Char} (first : sameWord name as = true) (second : sameWord name bs = true) :
    List.Forall₂ (fun a b => isBlank a = true → b = a) as bs := by
  rw [sameWord_iff] at first second
  induction first generalizing bs with
  | nil =>
    cases second
    exact .nil
  | @cons n a ns as same _ inductionHypothesis =>
    obtain _ | @⟨_, b, _, bs, alike, others⟩ := second
    refine .cons (fun blank => ?_) (inductionHypothesis others)
    obtain rfl := eq_of_sameLetter_of_isBlank same blank
    rw [sameLetter_comm] at alike
    exact eq_of_sameLetter_of_isBlank alike blank

/-- Where white space and one spelling of a name stand in place of another spelling, that spelling is white
space, and white space stands behind it. -/
theorem blank_of_shifted {as bs h r s : List Char} (alike : List.Forall₂ (fun a b => isBlank a = true → b = a) as bs)
    (blanks : Blanks h) (some_ : h ≠ []) (same : as ++ r = h ++ (bs ++ s)) :
    Blanks as ∧ ∃ c rest, r = c :: rest ∧ isBlank c = true := by
  induction alike generalizing h with
  | nil =>
    obtain ⟨c, h, rfl⟩ := List.exists_cons_of_ne_nil some_
    exact ⟨by simp [Blanks], c, _, same, blanks c List.mem_cons_self⟩
  | @cons a b as bs first _ inductionHypothesis =>
    obtain ⟨c, h, rfl⟩ := List.exists_cons_of_ne_nil some_
    obtain ⟨rfl, others⟩ := List.cons.inj same
    have blank := blanks a List.mem_cons_self
    obtain rfl := first blank
    have shifted : Blanks (h ++ [b]) := by
      intro d held
      rcases List.mem_append.mp held with inFront | last
      · exact blanks d (List.mem_cons_of_mem b inFront)
      · exact List.mem_singleton.mp last ▸ blank
    obtain ⟨blankOthers, behind⟩ := inductionHypothesis shifted (by simp) (by simpa using others)
    refine ⟨?_, behind⟩
    simpa [Blanks] using ⟨blank, blankOthers⟩

/-- A name is read as a whole behind one run of white space only. -/
theorem wholeName?_apart {name : List Char} (some_ : name ≠ []) {p : Place} {h written found : List Char}
    {q r s : Place} (first : wholeName? name p = some (written, q)) (blanks : Blanks h) (onward : p.Behind h r)
    (second : wholeName? name r = some (found, s)) : r = p := by
  obtain ⟨alike, behind, bounded⟩ := (wholeName?_iff _ _ _ _).mp first
  obtain ⟨alikeFound, further, _⟩ := (wholeName?_iff _ _ _ _).mp second
  by_contra moved
  have shifted : h ≠ [] := by
    rintro rfl
    exact moved (onward.2.trans (past_nil p))
  have same : written ++ q.rest = h ++ (found ++ s.rest) := by
    rw [← rest_of_behind behind, rest_of_behind (behind_trans onward further), List.append_assoc]
  obtain ⟨blankName, c, rest, text, blank⟩ :=
    blank_of_shifted (blank_of_alike alike alikeFound) blanks shifted same
  have begun : written ≠ [] := by
    rintro rfl
    exact some_ (List.forall₂_nil_right_iff.mp ((sameWord_iff _ _).mp alike))
  have last := past_before p written _ (List.getLast?_eq_some_getLast begun)
  have notWord := isWord_of_isBlank _ (blankName _ (List.getLast_mem begun))
  rw [Place.isBoundary, behind.2, last, ← behind.2, text] at bounded
  simp [Text.isBoundary, holdsWord, notWord, isWord_of_isBlank c blank] at bounded

/-- What begins with a whole name is read behind white space exactly if it is read behind some part of it:
no other part leaves room for the name. -/
theorem reach_findSome?_iff {α : Type} {name : List Char} (some_ : name ≠ []) (read : Place → Option α)
    (named : ∀ p a, read p = some a → ∃ r, wholeName? name p = some r) {cond : Char → Bool}
    (blank : ∀ c, cond c = true → isBlank c = true) (p : Place) (a : α) :
    (p.reach cond).findSome? read = some a ↔
      ∃ run q, (∀ c ∈ run, cond c = true) ∧ p.Behind run q ∧ read q = some a := by
  have unique {run run₂ : List Char} {q q₂ : Place} {b b₂ : α} (meets₂ : ∀ c ∈ run₂, cond c = true)
      (first : p.Behind run q) (second : p.Behind run₂ q₂) (reads : read q = some b) (reads₂ : read q₂ = some b₂)
      (order : run.length ≤ run₂.length) : q₂ = q := by
    obtain ⟨h, rfl⟩ := List.prefix_of_prefix_length_le first.1 second.1 order
    obtain ⟨middle, toMiddle, onward⟩ := (behind_append p run h q₂).mp second
    obtain rfl : q = middle := first.2.trans toMiddle.2.symm
    obtain ⟨r, whole⟩ := named q b reads
    obtain ⟨r₂, whole₂⟩ := named q₂ b₂ reads₂
    exact wholeName?_apart some_ whole (fun c held => blank c (meets₂ c (List.mem_append_right run held))) onward
      whole₂
  constructor
  · intro found
    obtain ⟨q, reached, reads⟩ := List.exists_of_findSome?_eq_some found
    obtain ⟨run, meets, behind⟩ := (mem_reach_iff p cond q).mp reached
    exact ⟨run, q, meets, behind, reads⟩
  · rintro ⟨run, q, meets, behind, reads⟩
    have listed := (mem_reach_iff p cond q).mpr ⟨run, meets, behind⟩
    have success : (read q).isSome = true := Option.isSome_of_eq_some reads
    obtain ⟨b, found⟩ := Option.isSome_iff_exists.mp (List.findSome?_isSome_iff.mpr ⟨q, listed, success⟩)
    obtain ⟨q₂, reached, reads₂⟩ := List.exists_of_findSome?_eq_some found
    obtain ⟨run₂, meets₂, behind₂⟩ := (mem_reach_iff p cond q₂).mp reached
    have same : q₂ = q := by
      rcases Nat.le_total run.length run₂.length with order | order
      · exact unique meets₂ behind behind₂ reads reads₂ order
      · exact (unique meets behind₂ behind reads₂ reads order).symm
    rw [found, ← reads₂, same, reads]

end Names

section Clauses

/-- The clause of a classic declaration is read where one stands, with a longest run as the base. -/
theorem classicBase?_iff (p q : Place) :
    classicBase? p = some q ↔ ∃ clause base, ClassicClause clause ∧ WordRun base ∧ p.Behind (clause ++ base) q ∧
      holdsWord q.rest.head? = false := by
  have colon (p q : Place) := skip_word?_iff p isGap ":" q ':' [] rfl (by decide)
  have keyword (p q : Place) := skip_word?_iff p isGap "public" q 'p' "ublic".toList rfl (by decide)
  simp only [classicBase?, Option.bind_eq_bind, Option.bind_eq_some_iff, Prod.exists, Option.some.injEq,
    colon, keyword, run?_isWord_iff]
  constructor
  · rintro ⟨_, ⟨gap, gaps, toColon⟩, _, ⟨gap₂, gaps₂, toKeyword⟩, gap₃, _, apart, base, _,
      ⟨word, toBase, longest⟩, rfl⟩
    obtain ⟨some_, gaps₃, toGap, _⟩ := (run?_iff_behind _ _ _ _).mp apart
    exact ⟨_, base, .mk gaps gaps₂ gaps₃ some_, word,
      behind_trans (behind_trans (behind_trans toColon toKeyword) toGap) toBase, longest⟩
  · rintro ⟨_, base, ⟨gaps, gaps₂, gaps₃, some_⟩, word, stretch, longest⟩
    obtain ⟨c, stretch, toBase⟩ := (behind_append _ _ _ _).mp stretch
    obtain ⟨b, stretch, toGap⟩ := (behind_append _ _ _ _).mp stretch
    obtain ⟨a, toColon, toKeyword⟩ := (behind_append _ _ _ _).mp stretch
    obtain ⟨d, ds, rfl⟩ := List.exists_cons_of_ne_nil word.1
    have notGap := isGap_of_isWord d (word.2 d List.mem_cons_self)
    exact ⟨a, ⟨_, gaps, toColon⟩, b, ⟨_, gaps₂, toKeyword⟩, _, c,
      run?_of_behind some_ gaps₃ toGap (rest_of_behind toBase) notGap, _, q, ⟨word, toBase, longest⟩, rfl⟩

/-- The name and the clause of a declarative declaration are read where they stand. -/
theorem nameAndBase?_iff (name : List Char) (p : Place) (written base : List Char) (q : Place) :
    nameAndBase? name p = some (written, base, q) ↔
      ∃ r clause, wholeName? name p = some (written, r) ∧ DeclarativeClause clause ∧ WordRun base ∧
        r.Behind (clause ++ base) q ∧ holdsWord q.rest.head? = false := by
  have colon (p q : Place) := skip_word?_iff p isBlank ":" q ':' [] rfl (by decide)
  have keyword (p q : Place) := skip_word?_iff p isBlank "public" q 'p' "ublic".toList rfl (by decide)
  simp only [nameAndBase?, Option.bind_eq_bind, Option.bind_eq_some_iff, Prod.exists, Option.some.injEq,
    Prod.mk.injEq, colon, keyword, run?_isWord_iff]
  constructor
  · rintro ⟨_, r, whole, _, ⟨blank, blanks, toColon⟩, _, ⟨blank₂, blanks₂, toKeyword⟩, blank₃, _, apart, _, _,
      ⟨word, toBase, longest⟩, rfl, rfl, rfl⟩
    obtain ⟨some_, blanks₃, toBlank, _⟩ := (run?_iff_behind _ _ _ _).mp apart
    exact ⟨r, _, whole, .mk blanks blanks₂ blanks₃ some_, word,
      behind_trans (behind_trans (behind_trans toColon toKeyword) toBlank) toBase, longest⟩
  · rintro ⟨r, _, whole, ⟨blanks, blanks₂, blanks₃, some_⟩, word, stretch, longest⟩
    obtain ⟨c, stretch, toBase⟩ := (behind_append _ _ _ _).mp stretch
    obtain ⟨b, stretch, toBlank⟩ := (behind_append _ _ _ _).mp stretch
    obtain ⟨a, toColon, toKeyword⟩ := (behind_append _ _ _ _).mp stretch
    obtain ⟨d, ds, rfl⟩ := List.exists_cons_of_ne_nil word.1
    have notBlank := isBlank_of_isWord d (word.2 d List.mem_cons_self)
    exact ⟨written, r, whole, a, ⟨_, blanks, toColon⟩, b, ⟨_, blanks₂, toKeyword⟩, _, c,
      run?_of_behind some_ blanks₃ toBlank (rest_of_behind toBase) notBlank, _, q, ⟨word, toBase, longest⟩,
      rfl, rfl, rfl⟩

end Clauses

end ComLayout.Header
