import ComLayout.Header.Declaration
import ComLayout.Proofs.Text.Ascii
import ComLayout.Proofs.Text.Search

/-!
# What a declaration is read from

A declaration is read where it starts, and every name in it stands in the text. So the base of a
declarative declaration is a word of the text, and it is never empty. What is declared depends on no more
of a requested name than its small letters.
-/

namespace ComLayout.Header

open Text Place

/-- Hexadecimal digits are passed over one by one. -/
theorem hexRun?_leadsTo (count : Nat) {p q : Place} (read : hexRun? count p = some q) : p.LeadsTo q := by
  induction count generalizing p with
  | zero =>
    obtain rfl := Option.some.inj read
    exact leadsTo_refl p
  | succ count inductionHypothesis =>
    cases text : p.rest with
    | nil => simp [hexRun?, text] at read
    | cons c rest =>
      simp only [hexRun?, text, after_eq_past p c rest text, Option.ite_none_right_eq_some] at read
      have step : p.LeadsTo (p.past [c]) := ⟨[c], by simp [text], rfl⟩
      exact leadsTo_trans step (inductionHypothesis read.2)

/-- A GUID ends ahead of where it starts. -/
theorem guidEnd?_leadsTo {p q : Place} (read : guidEnd? p = some q) : p.LeadsTo q := by
  simp only [guidEnd?, Option.bind_eq_bind, Option.bind_eq_some_iff] at read
  obtain ⟨a, first, b, hyphen, c, second, d, hyphen₂, e, third, f, hyphen₃, g, fourth, h, hyphen₄, last⟩ :=
    read
  have toSecond : p.LeadsTo c := leadsTo_trans (hexRun?_leadsTo 8 first)
    (leadsTo_trans (word?_leadsTo hyphen) (hexRun?_leadsTo 4 second))
  have toThird : c.LeadsTo e := leadsTo_trans (word?_leadsTo hyphen₂) (hexRun?_leadsTo 4 third)
  have toFourth : e.LeadsTo g := leadsTo_trans (word?_leadsTo hyphen₃) (hexRun?_leadsTo 4 fourth)
  have toLast : g.LeadsTo q := leadsTo_trans (word?_leadsTo hyphen₄) (hexRun?_leadsTo 12 last)
  exact leadsTo_trans toSecond (leadsTo_trans toThird (leadsTo_trans toFourth toLast))

/-- A quoted GUID ends ahead of where it starts. -/
theorem quotedGuid?_leadsTo {p q : Place} {guid : List Char} (read : quotedGuid? p = some (guid, q)) :
    p.LeadsTo q := by
  simp only [quotedGuid?, guid?, Option.bind_eq_bind, Option.bind_eq_some_iff, Option.map_eq_some_iff,
    Prod.exists, Prod.mk.injEq, Option.some.injEq] at read
  obtain ⟨a, opened, _, b, ⟨_, ended, _, rfl⟩, c, closed, d, finished, _, rfl⟩ := read
  have toGuid : p.LeadsTo a := leadsTo_trans (skip_leadsTo p isBlank) (word?_leadsTo opened)
  have toEnd : c.LeadsTo d := leadsTo_trans (skip_leadsTo c isBlank) (word?_leadsTo finished)
  exact leadsTo_trans toGuid (leadsTo_trans (guidEnd?_leadsTo ended) (leadsTo_trans (word?_leadsTo closed)
    toEnd))

/-- What can be reached lies ahead. -/
theorem reach_leadsTo {p q : Place} {cond : Char → Bool} (reached : q ∈ p.reach cond) : p.LeadsTo q :=
  have ⟨cs, begins, _, stop⟩ := mem_reach p cond q reached
  ⟨cs, begins, stop⟩

/-- A whole name ends ahead of where it starts. -/
theorem wholeName?_leadsTo {p q : Place} {name written : List Char}
    (read : wholeName? name p = some (written, q)) : p.LeadsTo q := by
  simp only [wholeName?, Option.bind_eq_bind, Option.bind_eq_some_iff, Prod.exists, Option.some.injEq,
    Prod.mk.injEq] at read
  obtain ⟨_, a, named, b, bounded, rfl, rfl⟩ := read
  obtain ⟨begins, _, rfl⟩ := (name?_eq_some p name _ a).mp named
  exact leadsTo_trans ⟨_, begins, rfl⟩ (demand_leadsTo bounded)

/-- The base of a declarative declaration is the run of word characters at a place ahead. -/
theorem declarativeAt?_base {p : Place} {name : List Char} {decl : Declaration} {base : String}
    (read : declarativeAt? name p = some decl) (form : decl.form = .declarative base) :
    ∃ q, p.LeadsTo q ∧ base.toList ≠ [] ∧ base.toList = q.rest.takeWhile isWord := by
  simp only [declarativeAt?, Option.bind_eq_bind, Option.bind_eq_some_iff, Prod.exists,
    Option.some.injEq] at read
  obtain ⟨a, bounded, b, keyword, _, c, gaps, d, tagged, e, opened, _, f, quoted, written, base', g,
    named, rfl⟩ := read
  obtain ⟨h, reached, clause⟩ := List.exists_of_findSome?_eq_some named
  simp only [nameAndBase?, Option.bind_eq_bind, Option.bind_eq_some_iff, Prod.exists, Option.some.injEq,
    Prod.mk.injEq] at clause
  obtain ⟨_, i, whole, j, colon, k, keyword₂, _, l, blanks, _, m, based, _, rfl, rfl⟩ := clause
  obtain ⟨some_, longest, _⟩ := (run?_eq_some l isWord _ _).mp based
  obtain rfl := DeclarationForm.declarative.inj form
  have toTag : p.LeadsTo d := by
    obtain ⟨_, rfl⟩ := (demand_eq_some _ _ _).mp tagged
    exact leadsTo_trans (demand_leadsTo bounded) (leadsTo_trans (word?_leadsTo keyword)
      (leadsTo_trans (run?_leadsTo gaps) (skip_leadsTo c isWord)))
  have toName : d.LeadsTo i := leadsTo_trans (word?_leadsTo opened) (leadsTo_trans
    (quotedGuid?_leadsTo quoted) (leadsTo_trans (reach_leadsTo reached) (wholeName?_leadsTo whole)))
  have toBase : i.LeadsTo l := leadsTo_trans
    (leadsTo_trans (skip_leadsTo i isBlank) (word?_leadsTo colon))
    (leadsTo_trans (leadsTo_trans (skip_leadsTo j isBlank) (word?_leadsTo keyword₂)) (run?_leadsTo blanks))
  refine ⟨l, leadsTo_trans toTag (leadsTo_trans toName toBase), ?_, ?_⟩
  · simpa using some_
  · simpa using longest

/-- The first declaration of a name is read at a place of the text. -/
theorem exists_of_firstDeclaration? {name : String} {text : List Char} {decl : Declaration}
    (declared : firstDeclaration? name text = some decl) :
    ∃ p, (Place.start text).LeadsTo p ∧ declarationAt? name.toList p = some decl := by
  obtain ⟨cs, begins, read⟩ := exists_of_firstOnward (Place.start text) text decl rfl declared
  exact ⟨(Place.start text).past cs, ⟨cs, begins, rfl⟩, read⟩

/-- What stands behind a place that a text leads to stands in the text. -/
theorem mem_of_leadsTo {p q : Place} (leads : p.LeadsTo q) {c : Char} (held : c ∈ q.rest) : c ∈ p.rest := by
  obtain ⟨cs, ⟨rest, text⟩, rfl⟩ := leads
  rw [past_rest p cs rest text.symm] at held
  rw [← text]
  exact List.mem_append_right cs held

/-- The base of a declaration that a text holds is a word of the text. -/
theorem base_of_firstDeclaration? {name base : String} {text : List Char} {decl : Declaration}
    (declared : firstDeclaration? name text = some decl) (form : decl.form = .declarative base) :
    base ≠ "" ∧ ∀ c ∈ base.toList, c ∈ text := by
  obtain ⟨p, leads, read⟩ := exists_of_firstDeclaration? declared
  simp only [declarationAt?, Option.orElse_eq_orElse, Option.orElse_eq_or, Option.or_eq_some_iff] at read
  rcases read with classic | ⟨_, declarative⟩
  · simp only [classicAt?, Option.bind_eq_bind, Option.bind_eq_some_iff, Prod.exists,
      Option.some.injEq] at classic
    obtain ⟨_, _, _, _, _, _, _, _, _, _, rfl⟩ := classic
    simp at form
  · obtain ⟨q, further, some_, longest⟩ := declarativeAt?_base declarative form
    refine ⟨fun empty => some_ (by simp [empty]), ?_⟩
    intro c held
    rw [longest] at held
    exact mem_of_leadsTo (leadsTo_trans leads further) ((List.takeWhile_prefix isWord).subset held)

/-- What is declared under a name is the name up to case. -/
theorem sameWord_of_declarationAt? {name : List Char} {p : Place} {decl : Declaration}
    (read : declarationAt? name p = some decl) : sameWord name decl.name.toList = true := by
  have alike {p q : Place} {written : List Char} (whole : wholeName? name p = some (written, q)) :
      sameWord name (String.ofList written).toList = true := by
    rw [String.toList_ofList]
    simp only [wholeName?, Option.bind_eq_bind, Option.bind_eq_some_iff, Prod.exists, Option.some.injEq,
      Prod.mk.injEq] at whole
    obtain ⟨_, a, named, _, _, rfl, _⟩ := whole
    exact ((name?_eq_some p name _ a).mp named).2.1
  simp only [declarationAt?, Option.orElse_eq_orElse, Option.orElse_eq_or, Option.or_eq_some_iff] at read
  rcases read with classic | ⟨_, declarative⟩
  · simp only [classicAt?, Option.bind_eq_bind, Option.bind_eq_some_iff, Prod.exists, Option.some.injEq] at classic
    obtain ⟨_, _, _, _, _, _, _, _, _, named, rfl⟩ := classic
    obtain ⟨_, _, whole⟩ := List.exists_of_findSome?_eq_some named
    exact alike whole
  · simp only [declarativeAt?, Option.bind_eq_bind, Option.bind_eq_some_iff, Prod.exists,
      Option.some.injEq] at declarative
    obtain ⟨_, _, _, _, _, _, _, _, _, _, _, _, _, _, _, _, _, named, rfl⟩ := declarative
    obtain ⟨_, _, clause⟩ := List.exists_of_findSome?_eq_some named
    simp only [nameAndBase?, Option.bind_eq_bind, Option.bind_eq_some_iff, Prod.exists, Option.some.injEq,
      Prod.mk.injEq] at clause
    obtain ⟨_, _, whole, _, _, _, _, _, _, _, _, _, _, rfl, _⟩ := clause
    exact alike whole

/-- The first declaration of a name declares the name up to case. -/
theorem sameWord_of_firstDeclaration? {name : String} {text : List Char} {decl : Declaration}
    (declared : firstDeclaration? name text = some decl) : sameWord name.toList decl.name.toList = true :=
  have ⟨_, _, read⟩ := exists_of_firstDeclaration? declared
  sameWord_of_declarationAt? read

/-- Names that are the same up to case have the same first declaration. -/
theorem firstDeclaration?_of_sameWord {a b : String} (same : sameWord a.toList b.toList = true)
    (text : List Char) : firstDeclaration? a text = firstDeclaration? b text := by
  have whole : wholeName? a.toList = wholeName? b.toList := by
    funext p
    rw [wholeName?, wholeName?, name?_of_sameWord same]
  have based : nameAndBase? a.toList = nameAndBase? b.toList := by
    funext p
    rw [nameAndBase?, nameAndBase?, whole]
  have here : declarationAt? a.toList = declarationAt? b.toList := by
    funext p
    rw [declarationAt?, declarationAt?, classicAt?, classicAt?, declarativeAt?, declarativeAt?, whole, based]
  rw [firstDeclaration?, firstDeclaration?, here]

/-- Two names with the same small letters have the same first declaration. -/
theorem firstDeclaration?_congr {a b : String} (same : a.toList.map lower = b.toList.map lower)
    (text : List Char) : firstDeclaration? a text = firstDeclaration? b text :=
  firstDeclaration?_of_sameWord (sameWord_of_lower same) text

end ComLayout.Header
