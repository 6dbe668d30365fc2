import ComLayout.Proofs.Header.Declared
import ComLayout.Proofs.Header.Rendering

/-!
# Reading back a written declaration

Where an interface is written, its declaration is read, with the name, the GUID and the base as they were
written. A name is found there if it is that of the interface up to case, and no other name is: what is
read as a whole name is neither a part of an identifier nor more than one.
-/

namespace ComLayout.Header

open Text Place

section Names

/-- Small letters of the characters of identifiers are such, and no others are. -/
theorem isNameChar_lower (c : Char) (ascii : c.toNat < 128) : isNameChar (lower c) = isNameChar c := by
  have each : ∀ c : Char, c.toNat < 128 → isNameChar (lower c) = isNameChar c :=
    forall_ascii (by decide +kernel)
  exact each c ascii

/-- A character that cannot stand in an identifier is not the same as one that can. -/
theorem sameLetter_nameChar (a c : Char) (named : isNameChar a = true) (ascii : c.toNat < 128)
    (other : isNameChar c = false) : sameLetter a c = false := by
  have asciiA : a.toNat < 128 := nameChar_ascii named
  cases same : sameLetter a c with
  | false => rfl
  | true =>
    rw [sameLetter_eq_akin, akin_ascii _ _ (lower_toNat_lt a asciiA) (lower_toNat_lt c ascii)] at same
    have alike : isNameChar a = isNameChar c := by
      rw [← isNameChar_lower a asciiA, same, isNameChar_lower c ascii]
    rw [named, other] at alike
    exact absurd alike (by decide)

/-- Names are the same up to case exactly if they have the same lower case. -/
theorem sameWord_iff_lowerString (name written : Identifier) :
    sameWord name.text.toList written.text.toList = true ↔
      lowerString name.text = lowerString written.text := by
  rw [sameWord_ascii _ _ name.isAscii written.isAscii,
    lowerString_eq_iff _ _ name.isAscii written.isAscii]

/-- An identifier ends in a word character. -/
theorem Identifier.last (name : Identifier) : ∃ c, name.text.toList.getLast? = some c ∧ isWord c = true := by
  refine ⟨name.text.toList.getLast name.some_, List.getLast?_eq_some_getLast name.some_, ?_⟩
  exact (nameChar_class (name.chars _ (List.getLast_mem name.some_))).1

/-- An identifier begins with a character of its own. -/
theorem Identifier.head (name : Identifier) :
    ∃ c cs, name.text.toList = c :: cs ∧ isNameChar c = true := by
  obtain ⟨c, cs, split⟩ := List.exists_cons_of_ne_nil name.some_
  exact ⟨c, cs, split, name.chars c (by rw [split]; exact List.mem_cons_self)⟩

/-- A word boundary lies before a word, behind anything but a word. -/
theorem isBoundary_before (p : Place) (c : Char) (rest : List Char) (text : p.rest = c :: rest)
    (bounded : holdsWord p.before = false) (word : isWord c = true) : p.isBoundary = true := by
  rw [Place.isBoundary, text, Text.isBoundary, bounded]
  simp [holdsWord, word]

/-- A word boundary lies behind an identifier. -/
theorem isBoundary_behind (written : Identifier) (q : Place) (c : Char) (rest : List Char)
    (text : q.rest = written.text.toList ++ c :: rest) (word : isWord c = false) :
    (q.past written.text.toList).isBoundary = true := by
  obtain ⟨last, ends, isWordLast⟩ := written.last
  rw [Place.isBoundary, past_before q _ last ends, past_rest q _ _ text]
  simp [Text.isBoundary, holdsWord, isWordLast, word]

/-- What is read as a whole name is no proper beginning of the identifier that is written: there is no
word boundary within it. -/
theorem not_isBoundary_within (written : Identifier) (q : Place) (v more rest : List Char)
    (split : v ++ more = written.text.toList) (text : q.rest = written.text.toList ++ rest) (begun : v ≠ [])
    (further : more ≠ []) : (q.past v).isBoundary = false := by
  obtain ⟨next, others, rfl⟩ := List.exists_cons_of_ne_nil further
  have wordOf (x : Char) (held : x ∈ v ++ next :: others) : isWord x = true :=
    (nameChar_class (written.chars x (by rwa [← split]))).1
  have ahead : q.rest = v ++ (next :: others ++ rest) := by
    rw [text, ← split, List.append_assoc]
  have before := past_before q v (v.getLast begun) (List.getLast?_eq_some_getLast begun)
  have wordBefore := wordOf (v.getLast begun) (List.mem_append_left _ (List.getLast_mem begun))
  have wordNext := wordOf next (by simp)
  rw [Place.isBoundary, before, past_rest q v _ ahead]
  simp [Text.isBoundary, holdsWord, wordBefore, wordNext]

/-- Where an identifier is written, nothing but that identifier is read as a whole name. -/
theorem written_of_wholeName? (name written : Identifier) (q r : Place) (c : Char) (rest found : List Char)
    (text : q.rest = written.text.toList ++ c :: rest) (ascii : c.toNat < 128)
    (other : isNameChar c = false) (read : wholeName? name.text.toList q = some (found, r)) :
    found = written.text.toList ∧ sameWord name.text.toList found = true := by
  simp only [wholeName?, Option.bind_eq_bind, Option.bind_eq_some_iff, Prod.exists, demand_eq_some,
    Option.some.injEq, Prod.mk.injEq] at read
  obtain ⟨v, _, named, _, ⟨bounded, rfl⟩, rfl, rfl⟩ := read
  obtain ⟨begins, alike, rfl⟩ := (name?_eq_some _ _ _ _).mp named
  have beginsWritten : written.text.toList <+: q.rest := ⟨c :: rest, text.symm⟩
  refine ⟨?_, alike⟩
  rcases Nat.lt_trichotomy v.length written.text.toList.length with shorter | equal | longer
  · obtain ⟨more, split⟩ := List.prefix_of_prefix_length_le begins beginsWritten (Nat.le_of_lt shorter)
    have further : more ≠ [] := by
      rintro rfl
      rw [← split, List.append_nil] at shorter
      exact absurd shorter (Nat.lt_irrefl _)
    have begun : v ≠ [] := by
      rintro rfl
      exact name.some_ (List.forall₂_nil_right_iff.mp ((sameWord_iff _ _).mp alike))
    rw [not_isBoundary_within written q v more _ split text begun further] at bounded
    exact absurd bounded Bool.false_ne_true
  · exact (List.prefix_of_prefix_length_le begins beginsWritten (Nat.le_of_eq equal)).eq_of_length equal
  · have beyond : written.text.toList ++ [c] <+: q.rest := ⟨rest, by simp [text]⟩
    have inside : written.text.toList ++ [c] <+: v := by
      apply List.prefix_of_prefix_length_le beyond begins
      rw [List.length_append, List.length_singleton]
      exact longer
    have held : c ∈ v := inside.subset (List.mem_append_right _ List.mem_cons_self)
    obtain ⟨a, member, letter⟩ := exists_of_sameWord alike held
    rw [sameLetter_nameChar a c (name.chars a member) ascii other] at letter
    exact absurd letter Bool.false_ne_true

/-- Where an identifier is written, a name is read as a whole exactly if it is that identifier up to
case. -/
theorem wholeName?_written (name written : Identifier) (q : Place) (c : Char) (rest : List Char)
    (text : q.rest = written.text.toList ++ c :: rest) (ascii : c.toNat < 128)
    (other : isNameChar c = false) :
    wholeName? name.text.toList q =
      if lowerString name.text = lowerString written.text then
        some (written.text.toList, q.past written.text.toList) else none := by
  have word : isWord c = false := (isWord_ascii c ascii).trans other
  by_cases same : lowerString name.text = lowerString written.text
  · have begins : written.text.toList <+: q.rest := ⟨c :: rest, text.symm⟩
    have read : q.name? name.text.toList = some (written.text.toList, q.past written.text.toList) :=
      (name?_eq_some _ _ _ _).mpr ⟨begins, (sameWord_iff_lowerString name written).mpr same, rfl⟩
    have bounded := isBoundary_behind written q c rest text word
    simp only [wholeName?, read, Option.bind_eq_bind, Option.bind_some, demand, bounded, if_true,
      if_pos same]
  · rw [if_neg same, Option.eq_none_iff_forall_ne_some]
    rintro ⟨v, r⟩ read
    obtain ⟨rfl, alike⟩ := written_of_wholeName? name written q r c rest v text ascii other read
    exact same ((sameWord_iff_lowerString name written).mp alike)

/-- No name is read as a whole before a blank. -/
theorem wholeName?_blank (name : Identifier) (q : Place) (rest : List Char) (text : q.rest = ' ' :: rest) :
    wholeName? name.text.toList q = none := by
  obtain ⟨a, as, split, named⟩ := name.head
  have unread : q.name? name.text.toList = none := by
    rw [Place.name?, split, text, Place.spelledFrom,
      sameLetter_nameChar a ' ' named (by decide) (by decide)]
    rfl
  simp only [wholeName?, unread, Option.bind_eq_bind, Option.bind_none]

end Names

section Tags

/-- As many hexadecimal digits as asked for are read. -/
theorem hexRun?_digits (p : Place) (ds rest : List Char) (text : p.rest = ds ++ rest)
    (digits : ∀ d ∈ ds, isHexDigit d = true) : hexRun? ds.length p = some (p.past ds) := by
  induction ds generalizing p with
  | nil => rw [past_nil]; rfl
  | cons d ds inductionHypothesis =>
    have ahead : p.rest = d :: (ds ++ rest) := text
    have next : (p.past [d]).rest = ds ++ rest := past_rest p [d] _ ahead
    have others : ∀ e ∈ ds, isHexDigit e = true := by
      intro e member
      exact digits e (List.mem_cons_of_mem d member)
    rw [List.length_cons, hexRun?, ahead]
    dsimp only
    rw [if_pos (digits d List.mem_cons_self), after_eq_past p d _ ahead,
      inductionHypothesis (p.past [d]) next others, past_cons]

/-- A group of a GUID is read behind a hyphen. -/
theorem hyphen_group (p : Place) (ds rest : List Char) (count : Nat) (text : p.rest = '-' :: (ds ++ rest))
    (digits : ∀ d ∈ ds, isHexDigit d = true) (length : ds.length = count) :
    ∃ q, p.word? "-" = some q ∧ hexRun? count q = some (p.past ('-' :: ds)) ∧
      (p.past ('-' :: ds)).rest = rest := by
  obtain ⟨hyphen, ahead⟩ := word?_step p "-" (ds ++ rest) text
  refine ⟨p.past ['-'], hyphen, ?_, past_rest p ('-' :: ds) rest text⟩
  rw [← length, hexRun?_digits (p.past ['-']) ds rest ahead digits, past_cons]

/-- A GUID is read as a whole. -/
theorem guidEnd?_written (p : Place) (guid : Guid) (rest : List Char) (text : p.rest = guid.text ++ rest) :
    guidEnd? p = some (p.past guid.text) := by
  obtain ⟨a, b, c, d, e, ⟨aLength, bLength, cLength, dLength, eLength⟩, digits⟩ := guid
  simp only [List.mem_append, or_imp, forall_and] at digits
  obtain ⟨⟨⟨⟨aDigits, bDigits⟩, cDigits⟩, dDigits⟩, eDigits⟩ := digits
  simp only [Guid.text, List.append_assoc, List.cons_append] at text ⊢
  have first : hexRun? 8 p = some (p.past a) := aLength ▸ hexRun?_digits p a _ text aDigits
  have afterFirst := past_rest p a _ text
  obtain ⟨q₁, hyphen₁, second, afterSecond⟩ := hyphen_group _ b _ 4 afterFirst bDigits bLength
  obtain ⟨q₂, hyphen₂, third, afterThird⟩ := hyphen_group _ c _ 4 afterSecond cDigits cLength
  obtain ⟨q₃, hyphen₃, fourth, afterFourth⟩ := hyphen_group _ d _ 4 afterThird dDigits dLength
  obtain ⟨q₄, hyphen₄, fifth, _⟩ := hyphen_group _ e rest 12 afterFourth eDigits eLength
  simp only [guidEnd?, first, hyphen₁, second, hyphen₂, third, hyphen₃, fourth, hyphen₄, fifth,
    Option.bind_eq_bind, Option.bind_some]
  simp only [past_append, List.append_assoc, List.cons_append]

/-- A quoted GUID is read up to the parenthesis. -/
theorem quotedGuid?_written (p : Place) (guid : Guid) (rest : List Char)
    (text : p.rest = '"' :: (guid.text ++ '"' :: ')' :: rest)) :
    quotedGuid? p = some (guid.text, p.past ('"' :: (guid.text ++ ['"', ')']))) := by
  have opening : p.skip isBlank = p := skip_nothing p isBlank '"' _ text (by decide)
  obtain ⟨quote, afterQuote⟩ := word?_step p "\"" (guid.text ++ '"' :: ')' :: rest) text
  have ended := guidEnd?_written _ guid _ afterQuote
  have afterGuid := past_rest _ guid.text _ afterQuote
  obtain ⟨closing, afterClosing⟩ := word?_step _ "\"" _ afterGuid
  have blank := skip_nothing _ isBlank ')' rest afterClosing (by decide)
  obtain ⟨parenthesis, _⟩ := word?_step _ ")" rest afterClosing
  have taken : (guid.text ++ '"' :: ')' :: rest).take guid.text.length = guid.text := List.take_left
  simp only [quotedGuid?, guid?, opening, quote, ended, closing, blank, parenthesis, Option.bind_eq_bind,
    Option.bind_some, Option.map_some]
  rw [afterQuote, past_offset _ guid.text, Nat.add_sub_cancel_left, taken, past_append, past_append,
    past_append]
  simp

/-- The words that introduce the GUID of an interface are read up to the parenthesis behind it. -/
theorem declarativeAt?_written (name : List Char) (p : Place) (d : InterfaceSource) (rest : List Char)
    (text : p.rest = d.tag ++ rest) (bounded : holdsWord p.before = false) :
    declarativeAt? name p = (((p.past d.tag).reach isBlank).findSome? (nameAndBase? name)).map
      fun (written, base, q) => ⟨p.offset, q.offset, String.ofList written,
        formatIid (String.ofList d.guid.text), .declarative (String.ofList base)⟩ := by
  have ahead : p.rest = "interface".toList ++ ([' '] ++ 'D' :: ("X_DECLARE_INTERFACE".toList ++ '(' ::
      ('"' :: (d.guid.text ++ '"' :: ')' :: rest)))) := by
    have split : introduction =
        "interface".toList ++ ' ' :: 'D' :: ("X_DECLARE_INTERFACE".toList ++ ['(', '"']) := by decide
    simp only [text, InterfaceSource.tag, split, List.append_assoc, List.cons_append, List.nil_append]
  have boundary : p.isBoundary = true := isBoundary_before p 'i' _ ahead bounded (by decide)
  obtain ⟨keyword, afterKeyword⟩ := word?_step p "interface" _ ahead
  have gaps := run?_of_run _ isGap [' '] 'D' _ afterKeyword (by simp) (by decide) (by decide)
  have afterGaps : ((p.past "interface".toList).past [' ']).rest =
      "DX_DECLARE_INTERFACE".toList ++ '(' :: ('"' :: (d.guid.text ++ '"' :: ')' :: rest)) :=
    past_rest _ [' '] _ afterKeyword
  have skipped := skip_run _ isWord _ '(' _ afterGaps (by decide) (by decide)
  have word : ((p.past "interface".toList).past [' ']).rest.takeWhile isWord =
      "DX_DECLARE_INTERFACE".toList := by
    rw [afterGaps, List.takeWhile_append_of_pos (by decide), List.takeWhile_cons_of_neg (by decide),
      List.append_nil]
  have tagged : isDeclareTag "DX_DECLARE_INTERFACE".toList = true := by decide
  have afterTag := past_rest _ _ _ afterGaps
  obtain ⟨opened, afterOpened⟩ := word?_step _ "(" _ afterTag
  have quoted := quotedGuid?_written _ d.guid rest afterOpened
  have whole : (((((p.past "interface".toList).past [' ']).past "DX_DECLARE_INTERFACE".toList).past
      "(".toList).past ('"' :: (d.guid.text ++ ['"', ')']))) = p.past d.tag := by
    simp only [past_append]
    congr 1
  simp only [declarativeAt?, demand, boundary, if_true, keyword, gaps, run, word, skipped, tagged, opened,
    quoted, Option.bind_eq_bind, Option.bind_some]
  rw [whole]
  cases ((p.past d.tag).reach isBlank).findSome? (nameAndBase? name) <;> rfl

end Tags

section Clauses

/-- The base clause is read behind the name of an interface. -/
theorem nameAndBase?_written (name : Identifier) (q : Place) (d : InterfaceSource) (rest : List Char)
    (text : q.rest = d.clause ++ '\n' :: rest) :
    nameAndBase? name.text.toList q =
      if lowerString name.text = lowerString d.name.text then
        some (d.name.text.toList, d.base.text.toList, q.past d.clause) else none := by
  obtain ⟨b, bs, baseSplit, bNamed⟩ := d.base.head
  have bBlank : isBlank b = false := (nameChar_class bNamed).2.1
  have ahead : q.rest = d.name.text.toList ++ ([' '] ++ ':' :: ([' '] ++ 'p' :: ("ublic".toList ++ ([' '] ++
      b :: (bs ++ '\n' :: rest))))) := by
    have split : derivation = [' '] ++ ':' :: ([' '] ++ 'p' :: ("ublic".toList ++ [' '])) := by decide
    simp only [text, InterfaceSource.clause, split, baseSplit, List.append_assoc, List.cons_append,
      List.nil_append]
  have whole := wholeName?_written name d.name q ' ' _ ahead (by decide) (by decide)
  by_cases same : lowerString name.text = lowerString d.name.text
  · rw [if_pos same] at whole ⊢
    have afterName := past_rest q _ _ ahead
    have blank := skip_run _ isBlank [' '] ':' _ afterName (by decide) (by decide)
    have afterBlank := past_rest _ [' '] _ afterName
    obtain ⟨colon, afterColon⟩ := word?_step _ ":" _ afterBlank
    have blank₂ := skip_run _ isBlank [' '] 'p' _ afterColon (by decide) (by decide)
    have afterBlank₂ := past_rest _ [' '] _ afterColon
    obtain ⟨keyword, afterKeyword⟩ := word?_step _ "public" _ afterBlank₂
    have blanks := run?_of_run _ isBlank [' '] b _ afterKeyword (by simp) (by decide) bBlank
    have afterBlanks : (((((((q.past d.name.text.toList).past [' ']).past ":".toList).past [' ']).past
        "public".toList).past [' ']).rest) = d.base.text.toList ++ '\n' :: rest := by
      rw [past_rest _ [' '] _ afterKeyword, baseSplit, List.cons_append]
    have based := run?_of_run _ isWord d.base.text.toList '\n' rest afterBlanks d.base.some_
      (fun c held => (nameChar_class (d.base.chars c held)).1) (by decide)
    have joined : [' '] ++ (":".toList ++ ([' '] ++ ("public".toList ++ [' ']))) = derivation := by decide
    have passed : d.name.text.toList ++ ([' '] ++ (":".toList ++ ([' '] ++ ("public".toList ++ ([' '] ++
        d.base.text.toList))))) = d.clause := by
      simp only [InterfaceSource.clause, ← joined, List.append_assoc]
    simp only [nameAndBase?, whole, blank, colon, blank₂, keyword, blanks, based, Option.bind_eq_bind,
      Option.bind_some]
    simp only [past_append, List.append_assoc, passed]
  · rw [if_neg same] at whole ⊢
    simp only [nameAndBase?, whole, Option.bind_eq_bind, Option.bind_none]

/-- No name is read before a blank. -/
theorem nameAndBase?_blank (name : Identifier) (q : Place) (rest : List Char)
    (text : q.rest = ' ' :: rest) : nameAndBase? name.text.toList q = none := by
  simp only [nameAndBase?, wholeName?_blank name q rest text, Option.bind_eq_bind, Option.bind_none]

/-- Where an interface is written, a name is declared exactly if it is that of the interface up to
case. -/
theorem declarationAt?_written (name : Identifier) (p : Place) (d : InterfaceSource) (rest : List Char)
    (text : p.rest = d.declaration ++ '\n' :: rest) (bounded : holdsWord p.before = false) :
    declarationAt? name.text.toList p =
      if lowerString name.text = lowerString d.name.text then
        some ⟨p.offset, (p.past d.declaration).offset, d.name.text, formatIid (String.ofList d.guid.text),
          .declarative d.base.text⟩ else none := by
  obtain ⟨c, cs, nameSplit, cNamed⟩ := d.name.head
  have cBlank : isBlank c = false := (nameChar_class cNamed).2.1
  have ahead : p.rest = d.tag ++ ' ' :: (d.clause ++ '\n' :: rest) := by
    rw [text, InterfaceSource.declaration, List.append_assoc, List.cons_append]
  have notClassic : classicAt? name.text.toList p = none := by
    have split : introduction = 'i' :: "nterface DX_DECLARE_INTERFACE(\"".toList := by decide
    have begins : p.rest.head? ≠ some 'M' := by
      rw [ahead, InterfaceSource.tag, split]
      simp
    have unread := word?_other p "MIDL_INTERFACE(" 'M' _ rfl begins
    simp only [classicAt?, unread, Option.bind_eq_bind, Option.bind_none]
  have afterTag := past_rest p _ _ ahead
  have reached : (p.past d.tag).reach isBlank = [(p.past d.tag).past [' '], p.past d.tag] := by
    refine reach_one _ isBlank ' ' c (cs ++ derivation ++ d.base.text.toList ++ '\n' :: rest) ?_ (by decide)
      cBlank
    rw [afterTag, InterfaceSource.clause, nameSplit]
    rfl
  have afterBlank : ((p.past d.tag).past [' ']).rest = d.clause ++ '\n' :: rest :=
    past_rest _ [' '] _ afterTag
  have offset : ((p.past d.tag).past [' ']).past d.clause = p.past d.declaration := by
    rw [past_append, past_append]
    rfl
  rw [declarationAt?, notClassic, declarativeAt?_written _ p d _ ahead bounded, reached,
    List.findSome?_cons, nameAndBase?_written name _ d rest afterBlank, offset]
  by_cases same : lowerString name.text = lowerString d.name.text
  · simp only [if_pos same, Option.map_some, String.ofList_toList]
    rfl
  · have nothing := nameAndBase?_blank name (p.past d.tag) _ afterTag
    simp only [if_neg same, List.findSome?_cons, nothing, List.findSome?_nil, Option.map_none]
    rfl

end Clauses

end ComLayout.Header
