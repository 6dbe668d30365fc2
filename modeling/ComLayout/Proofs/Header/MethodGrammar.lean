import ComLayout.Header.Methods
import ComLayout.Proofs.Header.Vocabulary
import ComLayout.Proofs.Text.Trim

/-!
# The grammar of methods

What may stand where a method occurs, said as texts. The readers of both grammars accept exactly these texts:
white space and words exclude one another, so that each run of them has one length, and a return type is the
part before a comma without parentheses.
-/

namespace ComLayout.Header

open Text Place

/-- The name of a method and the parenthesis that closes it, with white space around the name. -/
inductive ClosedName (name : List Char) : List Char → Prop where
  | mk {before behind : List Char} (blank : Blanks before) (word : WordRun name)
      (blankBehind : Blanks behind) : ClosedName name (before ++ (name ++ (behind ++ [')'])))

/-- A method of the classic grammar. -/
inductive ClassicMethod (name : List Char) : List Char → Prop where
  | mk {beforeStar closed behind : List Char} (blank : Blanks beforeStar) (named : ClosedName name closed)
      (blankBehind : Blanks behind) :
      ClassicMethod name ("STDMETHODCALLTYPE".toList ++ (beforeStar ++ ['*']) ++ closed ++ (behind ++ ['(']))

/-- A return type: a text without comma and parentheses, on one line but for white space at its ends. -/
inductive ReturnTypeText : List Char → Prop where
  | mk {before type behind : List Char} (blank : Blanks before) (some_ : type ≠ [])
      (plain : ∀ c ∈ type, c ≠ ',' ∧ c ≠ '(' ∧ c ≠ ')' ∧ c ≠ '\n') (blankBehind : Blanks behind) :
      ReturnTypeText (before ++ type ++ behind)

/-- What announces the name of a method: a parenthesis, or a return type and a comma. -/
inductive Announcement : List Char → Prop where
  | plain : Announcement ['(']
  | typed {type : List Char} (returns : ReturnTypeText type) : Announcement ("_(".toList ++ (type ++ [',']))

/-- A method of the declarative grammar. -/
inductive DeclarativeMethod (name : List Char) : List Char → Prop where
  | mk {announced closed : List Char} (announces : Announcement announced) (named : ClosedName name closed) :
      DeclarativeMethod name ("STDMETHOD".toList ++ (announced ++ closed))

section Names

/-- What follows a name up to its closing parenthesis begins with no word character. -/
theorem head_of_closing (behind rest : List Char) (blank : Blanks behind) :
    ∃ c cs, behind ++ ')' :: rest = c :: cs ∧ isWord c = false := by
  cases behind with
  | nil => exact ⟨')', rest, rfl, by decide⟩
  | cons c cs => exact ⟨c, cs ++ ')' :: rest, rfl, isWord_of_isBlank c (blank c List.mem_cons_self)⟩

/-- A name is read with the parenthesis that closes it exactly where both stand. -/
theorem closedName_iff (p q : Place) (name : List Char) :
    (∃ r, (p.skip isBlank).run? isWord = some (name, r) ∧ (r.skip isBlank).word? ")" = some q) ↔
      ∃ cs, ClosedName name cs ∧ p.Behind cs q := by
  constructor
  · rintro ⟨r, named, closed⟩
    obtain ⟨some_, longest, rfl⟩ := (run?_eq_some _ _ _ _).mp named
    obtain ⟨behind, blankBehind, stretch⟩ := (skip_word?_iff _ _ _ _ ')' [] rfl (by decide)).mp closed
    have word : WordRun name := by
      refine ⟨some_, ?_⟩
      rw [longest]
      exact fun c held => List.mem_takeWhile_imp held
    have blank : Blanks (p.rest.takeWhile isBlank) :=
      fun c held => List.mem_takeWhile_imp held
    have toName : (p.skip isBlank).Behind name ((p.skip isBlank).past name) :=
      ⟨longest ▸ List.takeWhile_prefix isWord, rfl⟩
    exact ⟨_, .mk blank word blankBehind, behind_trans (behind_skip p isBlank) (behind_trans toName stretch)⟩
  · rintro ⟨_, ⟨blank, word, blankBehind⟩, stretch⟩
    rename_i before behind
    obtain ⟨r, toName, onward⟩ := (behind_append _ _ _ _).mp stretch
    obtain ⟨s, overName, toClose⟩ := (behind_append _ _ _ _).mp onward
    obtain ⟨n, ns, rfl⟩ := List.exists_cons_of_ne_nil word.1
    have ahead : p.rest = before ++ n :: (ns ++ s.rest) := by
      rw [rest_of_behind toName, rest_of_behind overName, List.cons_append]
    have skipped := skip_run p isBlank before n _ ahead blank
      (isBlank_of_isWord n (word.2 n List.mem_cons_self))
    obtain ⟨c, cs, split, stops⟩ := head_of_closing behind q.rest blankBehind
    have behindName : r.rest = (n :: ns) ++ c :: cs := by
      rw [rest_of_behind overName, rest_of_behind toClose, ← split, List.append_assoc, List.singleton_append]
    have named := run?_of_run r isWord (n :: ns) c cs behindName word.1 word.2 stops
    refine ⟨s, ?_, ?_⟩
    · rw [skipped, ← toName.2, named, overName.2]
    · exact (skip_word?_iff _ _ _ _ ')' [] rfl (by decide)).mpr ⟨behind, blankBehind, toClose⟩

end Names

section Methods

/-- The classic grammar's reader accepts its methods. -/
theorem classicMethodAt?_iff (p q : Place) (name : List Char) :
    classicMethodAt? p = some (name, q) ↔ ∃ cs, ClassicMethod name cs ∧ p.Behind cs q := by
  simp only [classicMethodAt?, Option.bind_eq_bind, Option.bind_eq_some_iff, Prod.exists,
    Option.some.injEq, Prod.mk.injEq]
  constructor
  · rintro ⟨a, keyword, b, star, _, c, named, d, closed, _, opened, rfl, rfl⟩
    obtain ⟨beforeStar, blank, toStar⟩ := (skip_word?_iff _ _ _ _ '*' [] rfl (by decide)).mp star
    obtain ⟨inner, closedName, toClose⟩ := (closedName_iff b d _).mp ⟨c, named, closed⟩
    obtain ⟨behind, blankBehind, toOpen⟩ := (skip_word?_iff _ _ _ _ '(' [] rfl (by decide)).mp opened
    have toKeyword := (word?_iff_behind _ _ _).mp keyword
    exact ⟨_, .mk blank closedName blankBehind,
      behind_trans (behind_trans (behind_trans toKeyword toStar) toClose) toOpen⟩
  · rintro ⟨_, ⟨blank, closedName, blankBehind⟩, stretch⟩
    obtain ⟨d, stretch, toOpen⟩ := (behind_append _ _ _ _).mp stretch
    obtain ⟨b, stretch, toClose⟩ := (behind_append _ _ _ _).mp stretch
    obtain ⟨a, toKeyword, toStar⟩ := (behind_append _ _ _ _).mp stretch
    obtain ⟨c, named, closed⟩ := (closedName_iff b d name).mpr ⟨_, closedName, toClose⟩
    refine ⟨a, (word?_iff_behind _ _ _).mpr toKeyword, b, ?_, name, c, named, d, closed, q, ?_, rfl, rfl⟩
    · exact (skip_word?_iff _ _ _ _ '*' [] rfl (by decide)).mpr ⟨_, blank, toStar⟩
    · exact (skip_word?_iff _ _ _ _ '(' [] rfl (by decide)).mpr ⟨_, blankBehind, toOpen⟩

/-- The characters of a return type may stand before the comma. -/
theorem isTypeChar_of_mem {cs : List Char} (returns : ReturnTypeText cs) :
    ∀ c ∈ cs, isTypeChar c = true := by
  have blankType (c : Char) (blank : isBlank c = true) : isTypeChar c = true := by
    revert c
    exact forall_blank (by decide +kernel)
  obtain ⟨blank, _, plain, blankBehind⟩ := returns
  intro c held
  rcases List.mem_append.mp held with front | inBehind
  · rcases List.mem_append.mp front with inBefore | inType
    · exact blankType c (blank c inBefore)
    · obtain ⟨comma, opened, closed, _⟩ := plain c inType
      simp [isTypeChar, comma, opened, closed]
  · exact blankType c (blankBehind c inBehind)

/-- Return types are read as such. White space at the ends of the type belongs to that around it, so it may
hold line ends, unless there is nothing else. -/
theorem isReturnType_iff (cs : List Char) (admitted : ∀ c ∈ cs, isTypeChar c = true) :
    isReturnType cs = true ↔ ReturnTypeText cs := by
  have plain (c : Char) (held : c ∈ cs) (notFeed : c ≠ '\n') : c ≠ ',' ∧ c ≠ '(' ∧ c ≠ ')' ∧ c ≠ '\n' := by
    have typeChar := admitted c held
    simp only [isTypeChar, Bool.and_eq_true, bne_iff_ne] at typeChar
    exact ⟨typeChar.1.1, typeChar.1.2, typeChar.2, notFeed⟩
  obtain ⟨before, behind, split, blank, blankBehind⟩ := exists_trim_split cs
  unfold isReturnType
  constructor
  · intro returns
    cases trimmed : trim cs with
    | nil =>
      simp only [trimmed, List.any_eq_true, bne_iff_ne] at returns
      obtain ⟨c, held, notFeed⟩ := returns
      have allBlank : Blanks cs := by
        rw [split, trimmed, List.append_nil]
        intro d member
        exact (List.mem_append.mp member).elim (blank d) (blankBehind d)
      obtain ⟨as, bs, rfl⟩ := List.append_of_mem held
      have type : ReturnTypeText (as ++ [c] ++ bs) := by
        refine .mk ?_ (by simp) ?_ ?_
        · exact fun d member => allBlank d (List.mem_append_left _ member)
        · intro d member
          obtain rfl := List.mem_singleton.mp member
          exact plain d held notFeed
        · exact fun d member => allBlank d (List.mem_append_right _ (List.mem_cons_of_mem c member))
      simpa using type
    | cons d ds =>
      simp only [trimmed, Bool.not_eq_true', List.contains_eq_mem, decide_eq_false_iff_not] at returns
      rw [split]
      refine .mk blank (by simp [trimmed]) ?_ blankBehind
      intro c held
      refine plain c (mem_of_mem_trim held) ?_
      rintro rfl
      exact returns (trimmed ▸ held)
  · rintro @⟨front, type, back, blankFront, some_, plainType, blankBack⟩
    have same : trim (front ++ type ++ back) = trim type := trim_of_blanks front type back blankFront blankBack
    rw [same]
    have noFeed : '\n' ∉ type := fun held => (plainType '\n' held).2.2.2 rfl
    cases trimmed : trim type with
    | nil =>
      obtain ⟨c, cs, rfl⟩ := List.exists_cons_of_ne_nil some_
      refine List.any_eq_true.mpr ⟨c, by simp, ?_⟩
      simp only [bne_iff_ne]
      rintro rfl
      exact noFeed List.mem_cons_self
    | cons d ds =>
      have notInTrimmed : '\n' ∉ d :: ds := fun held => noFeed (mem_of_mem_trim (trimmed ▸ held))
      simpa using notInTrimmed

/-- The reader of announcements accepts them. -/
theorem beforeMethodName?_iff (p q : Place) :
    beforeMethodName? p = some q ↔ ∃ cs, Announcement cs ∧ p.Behind cs q := by
  simp only [beforeMethodName?, Option.orElse_eq_orElse, Option.orElse_eq_or, Option.or_eq_some_iff,
    Option.bind_eq_bind, Option.bind_eq_some_iff]
  constructor
  · rintro (plain | ⟨_, a, opened, b, returns, comma⟩)
    · exact ⟨_, .plain, (word?_iff_behind _ _ _).mp plain⟩
    · obtain ⟨admitted, rfl⟩ := (demand_eq_some _ _ _).mp returns
      have toType := (word?_iff_behind _ _ _).mp opened
      have toComma := (word?_iff_behind _ _ _).mp comma
      have typeChars : ∀ c ∈ a.rest.takeWhile isTypeChar, isTypeChar c = true :=
        fun c held => List.mem_takeWhile_imp held
      exact ⟨_, .typed ((isReturnType_iff _ typeChars).mp admitted),
        behind_trans toType (behind_trans (behind_skip a isTypeChar) toComma)⟩
  · rintro ⟨_, plain | @⟨type, returns⟩, stretch⟩
    · exact .inl ((word?_iff_behind p "(" q).mpr stretch)
    · obtain ⟨a, toType, onward⟩ := (behind_append _ _ _ _).mp stretch
      obtain ⟨b, overType, toComma⟩ := (behind_append _ _ _ _).mp onward
      have typeChars := isTypeChar_of_mem returns
      have ahead : a.rest = type ++ ',' :: q.rest := by
        rw [rest_of_behind overType, rest_of_behind toComma, List.singleton_append]
      have taken : a.rest.takeWhile isTypeChar = type := by
        rw [ahead, List.takeWhile_append_of_pos typeChars, List.takeWhile_cons_of_neg (by decide),
          List.append_nil]
      have other : p.word? "(" = none := by
        apply word?_other p "(" '(' [] rfl
        rw [rest_of_behind toType]
        simp
      refine .inr ⟨other, a, (word?_iff_behind _ _ _).mpr toType, b, ?_, ?_⟩
      · rw [demand_eq_some, run, taken, skip_eq_past, taken]
        exact ⟨(isReturnType_iff type typeChars).mpr returns, overType.2⟩
      · exact (word?_iff_behind _ _ _).mpr toComma

/-- The declarative grammar's reader accepts its methods where no word ends and a line end lies ahead. -/
theorem declarativeMethodAt?_iff (p q : Place) (name : List Char) :
    declarativeMethodAt? p = some (name, q) ↔
      holdsWord p.before = false ∧ '\n' ∈ q.rest ∧ ∃ cs, DeclarativeMethod name cs ∧ p.Behind cs q := by
  simp only [declarativeMethodAt?, Option.bind_eq_bind, Option.bind_eq_some_iff, Prod.exists,
    Option.some.injEq, Prod.mk.injEq, demand_eq_some]
  constructor
  · rintro ⟨here, ⟨bounded, rfl⟩, a, keyword, b, announced, _, c, named, d, closed, _, ⟨ended, rfl⟩, rfl, rfl⟩
    have toKeyword := (word?_iff_behind _ _ _).mp keyword
    obtain ⟨announcement, announces, toName⟩ := (beforeMethodName?_iff a b).mp announced
    obtain ⟨inner, closedName, toClose⟩ := (closedName_iff b _ _).mp ⟨c, named, closed⟩
    refine ⟨?_, ?_, _, .mk announces closedName, behind_trans toKeyword (behind_trans toName toClose)⟩
    · rw [Place.isBoundary, rest_of_behind toKeyword] at bounded
      exact (isBoundary_word here.before 'S' (by decide)).mp bounded
    · simpa [hasLineEnd] using ended
  · rintro ⟨bounded, ended, _, ⟨announces, closedName⟩, stretch⟩
    obtain ⟨a, toKeyword, onward⟩ := (behind_append _ _ _ _).mp stretch
    obtain ⟨b, toName, toClose⟩ := (behind_append _ _ _ _).mp onward
    obtain ⟨c, named, closed⟩ := (closedName_iff b q name).mpr ⟨_, closedName, toClose⟩
    refine ⟨p, ⟨?_, rfl⟩, a, (word?_iff_behind _ _ _).mpr toKeyword, b, ?_, name, c, named, q, closed, q,
      ⟨?_, rfl⟩, rfl, rfl⟩
    · rw [Place.isBoundary, rest_of_behind toKeyword]
      exact (isBoundary_word p.before 'S' (by decide)).mpr bounded
    · exact (beforeMethodName?_iff a b).mpr ⟨_, announces, toName⟩
    · simpa [hasLineEnd] using ended

end Methods

end ComLayout.Header
