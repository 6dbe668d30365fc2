import ComLayout.Proofs.Number.Reading
import ComLayout.Proofs.Text.Respelling
import ComLayout.Proofs.Text.Trim
import ComLayout.Settings.Reading

/-!
# Values that come through a variable

A variable holds a text, whatever is meant by it. Nothing with a comma is a truth value or a number, so the items of a
list come through as they are, even those that look like numbers, however much white space and however many blank
entries stand between the commas. The written form of an integer comes through as that integer, and a text that is
nothing else comes through as it is.
-/

namespace ComLayout.Value

open Number Text

section Lists

/-- An item of a list: it is not empty, and has neither a comma nor white space at its ends. -/
structure IsItem (item : String) : Prop where
  filled : item ≠ ""
  whole : ',' ∉ item.toList
  front : item.toList.head?.any isBlank = false
  back : item.toList.getLast?.any isBlank = false

/-- The entries between commas list items, each with white space around it. Entries without an item are empty or hold
nothing but white space. -/
inductive Enumerates : (entries items : List String) → Prop where
  | nil : Enumerates [] []
  | blank {entry : String} {entries items : List String} (blank : ∀ c ∈ entry.toList, isBlank c = true)
      (others : Enumerates entries items) : Enumerates (entry :: entries) items
  | item {before item behind : String} {entries items : List String} (isItem : IsItem item)
      (blank : ∀ c ∈ before.toList, isBlank c = true) (blankBehind : ∀ c ∈ behind.toList, isBlank c = true)
      (others : Enumerates entries items) : Enumerates ((before ++ item ++ behind) :: entries) (item :: items)

variable {entries items : List String}

/-- There are at least as many entries as items. -/
theorem Enumerates.length_le (enumerates : Enumerates entries items) : items.length ≤ entries.length := by
  induction enumerates with
  | nil => exact Nat.le_refl 0
  | blank _ _ inductionHypothesis => exact Nat.le_succ_of_le inductionHypothesis
  | item _ _ _ _ inductionHypothesis => exact Nat.succ_le_succ inductionHypothesis

/-- No entry has a comma. -/
theorem Enumerates.whole (enumerates : Enumerates entries items) :
    ∀ piece ∈ entries.map String.toList, ',' ∉ piece := by
  have solid {cs : List Char} (blank : ∀ c ∈ cs, isBlank c = true) : ',' ∉ cs :=
    fun held => absurd (blank ',' held) (by decide)
  induction enumerates with
  | nil => simp
  | blank blank _ inductionHypothesis => exact List.forall_mem_cons.mpr ⟨solid blank, inductionHypothesis⟩
  | item isItem blank blankBehind _ inductionHypothesis =>
    refine List.forall_mem_cons.mpr ⟨?_, inductionHypothesis⟩
    simp only [String.toList_append, List.mem_append, solid blank, isItem.whole, solid blankBehind, or_self,
      not_false_eq_true]

/-- What is left of the entries without white space, and without what is empty then, are the items. -/
theorem Enumerates.trimmed (enumerates : Enumerates entries items) :
    (((entries.map String.toList).map trim).filter (!·.isEmpty)).map String.ofList = items := by
  induction enumerates with
  | nil => rfl
  | @blank entry _ _ blank _ inductionHypothesis =>
    rw [List.map_cons, List.map_cons, trim_eq_nil blank, List.filter_cons_of_neg (by simp), inductionHypothesis]
  | @item before item behind _ _ isItem blank blankBehind _ inductionHypothesis =>
    have kept : trim (before ++ item ++ behind).toList = item.toList := by
      rw [String.toList_append, String.toList_append, trim_of_blanks _ _ _ blank blankBehind,
        trim_of_solid_ends isItem.front isItem.back]
    rw [List.map_cons, List.map_cons, kept, List.filter_cons_of_pos (by simpa using isItem.filled), List.map_cons,
      String.ofList_toList, inductionHypothesis]

/-- Entries with commas between them are cut apart at these. -/
theorem Enumerates.split_intercalate (enumerates : Enumerates entries items) (some_ : entries ≠ []) :
    split ',' (String.intercalate "," entries).toList = entries.map String.toList := by
  obtain ⟨first, more, rfl⟩ := List.exists_cons_of_ne_nil some_
  rw [String.toList_intercalate, List.map_cons]
  exact Text.split_intercalate ',' first.toList (more.map String.toList) enumerates.whole

/-- More than one item makes a text with a comma, whose items are these. -/
theorem Enumerates.read (enumerates : Enumerates entries items) (several : 2 ≤ items.length) :
    ',' ∈ (String.intercalate "," entries).toList ∧ itemsOf (String.intercalate "," entries).toList = items := by
  have many := Nat.le_trans several enumerates.length_le
  have some_ : entries ≠ [] := List.ne_nil_of_length_pos (Nat.lt_of_lt_of_le Nat.zero_lt_two many)
  have pieces := enumerates.split_intercalate some_
  constructor
  · have commas := congrArg List.length pieces
    rw [split_length, List.length_map] at commas
    exact List.count_pos_iff.mp (by omega)
  · rw [itemsOf, pieces, enumerates.trimmed]

end Lists

section Kinds

variable {cs : List Char}

/-- A text spells a truth value if it is a word for one, in any case. -/
theorem boolOf?_eq_none :
    boolOf? cs = none ↔ ¬ Respelled cs "true".toList ∧ ¬ Respelled cs "false".toList := by
  have yes : lowerText cs = "true".toList ↔ Respelled cs "true".toList := lowerText_eq_iff (by decide) cs
  have no : lowerText cs = "false".toList ↔ Respelled cs "false".toList := lowerText_eq_iff (by decide) cs
  rw [← yes, ← no, boolOf?]
  by_cases affirmed : lowerText cs = "true".toList
  · simp [affirmed]
  · by_cases denied : lowerText cs = "false".toList
    · simp [denied]
    · simp only [affirmed, denied, if_false, not_false_eq_true, and_self]

/-- A text with a character that is in no respelling of the words is no truth value. -/
theorem boolOf?_of_mem {c : Char} (held : c ∈ cs) (plain : c.isAlpha = false) : boolOf? cs = none := by
  have strange (word : List Char) (letters : ∀ d ∈ word, d.isAlpha = true) : ¬ Respelled cs word := by
    intro same
    obtain ⟨d, among, alike⟩ := List.mem_map.mp (same ▸ List.mem_map_of_mem held : c.toLower ∈ word.map Char.toLower)
    have letter := letters d among
    rw [← eq_of_toLower_eq alike.symm plain, plain] at letter
    exact Bool.noConfusion letter
  exact boolOf?_eq_none.mpr ⟨strange _ (by decide), strange _ (by decide)⟩

/-- A comma stands in no number. -/
theorem foreign_comma : Foreign ',' := ⟨by decide, by decide, by decide, by decide⟩

/-- A text with a comma is a list. -/
theorem ofText_of_comma {raw : String} (comma : ',' ∈ raw.toList) :
    ofText raw = .list ((itemsOf raw.toList).map .text) := by
  have noTruth : boolOf? raw.toList = none := boolOf?_of_mem comma (by decide)
  have noNumber : numberOf? raw.toList = none := by
    rw [numberOf?, foreign_comma.readReal?_eq_none comma, foreign_comma.readInt?_eq_none comma]
    simp
  simp [ofText, noTruth, noNumber, listOf?, comma]

/-- A text that spells a number is that number. -/
theorem ofText_of_number {raw : String} {value : Value} (noTruth : boolOf? raw.toList = none)
    (number : numberOf? raw.toList = some value) : ofText raw = value := by
  simp [ofText, noTruth, number]

/-- The written form of an integer with no more digits than an integer may have is that integer. -/
theorem ofText_toString {n : Int} (short : (Nat.toDigits 10 n.natAbs).length ≤ maxDigits) :
    ofText (toString n) = .int n := by
  have noPoint : '.' ∉ (toString n).toList := by
    intro held
    rcases mem_toString_int held with same | digit
    · exact absurd same (by decide)
    · exact absurd digit (by decide)
  have filled : (toString n).toList ≠ [] := by
    intro empty
    have unread : readInt? [] = none := by decide
    have read := readInt?_toString short
    rw [empty, unread] at read
    exact absurd read (by simp)
  obtain ⟨c, held⟩ := List.exists_mem_of_ne_nil (toString n).toList filled
  refine ofText_of_number (boolOf?_of_mem held (class_of_mem_toString held).2.2) ?_
  rw [numberOf?, if_neg (by simpa using noPoint), readInt?_toString short, Option.map_some]

/-- What spells no number, as a text with a point or without one. -/
theorem numberOf?_eq_none :
    numberOf? cs = none ↔ if '.' ∈ cs then readReal? cs = none else readInt? cs = none := by
  by_cases point : '.' ∈ cs <;> simp [numberOf?, point]

/-- A number is no text. -/
theorem numberOf?_ne_text (text : String) : numberOf? cs ≠ some (.text text) := by
  rw [numberOf?]
  split <;> simp

/-- The texts that stay texts: those without a comma that spell neither a truth value in any case nor a number. A text
with a point can only be a real, and any other an integer. -/
theorem ofText_eq_text {raw : String} : ofText raw = .text raw ↔
    ',' ∉ raw.toList ∧ ¬ Respelled raw.toList "true".toList ∧ ¬ Respelled raw.toList "false".toList ∧
      if '.' ∈ raw.toList then readReal? raw.toList = none else readInt? raw.toList = none := by
  rw [← numberOf?_eq_none, ← and_assoc (a := ¬ Respelled raw.toList _), ← boolOf?_eq_none]
  constructor
  · intro unchanged
    have noTruth : boolOf? raw.toList = none := by
      cases truth : boolOf? raw.toList with
      | none => rfl
      | some b => simp [ofText, truth] at unchanged
    have noNumber : numberOf? raw.toList = none := by
      cases number : numberOf? raw.toList with
      | none => rfl
      | some value =>
        rw [ofText_of_number noTruth number] at unchanged
        exact absurd (unchanged ▸ number) (numberOf?_ne_text raw)
    refine ⟨fun comma => ?_, noTruth, noNumber⟩
    rw [ofText_of_comma comma] at unchanged
    cases unchanged
  · rintro ⟨plain, noTruth, noNumber⟩
    simp [ofText, noTruth, noNumber, listOf_of_not_mem _ plain]

end Kinds

/-- What comes through a variable.

Two items or more come through as they are from between commas, whatever white space and blank entries stand there
besides. An integer of at most 4300 digits comes through. The texts that come through unchanged are those without a
comma that are no word for a truth value in any case and spell no number.

A text is tried as a truth value, then as a number and then as a list. A comma is foreign to the first two, so what
holds one is a list, and its entries are trimmed one by one. Neither sign nor digits of an integer are a point or a
letter, which leaves it to the reader of integers, and this takes back what the decimal form is made of. -/
theorem ofText_comes_through :
    (∀ entries items, Enumerates entries items → 2 ≤ items.length →
      ofText (String.intercalate "," entries) = .list (items.map .text)) ∧
    (∀ n : Int, (Nat.toDigits 10 n.natAbs).length ≤ 4300 → ofText (toString n) = .int n) ∧
    ∀ raw : String, ofText raw = .text raw ↔
      ',' ∉ raw.toList ∧ ¬ Respelled raw.toList "true".toList ∧ ¬ Respelled raw.toList "false".toList ∧
        if '.' ∈ raw.toList then readReal? raw.toList = none else readInt? raw.toList = none := by
  refine ⟨fun entries items enumerates several => ?_, fun n short => ofText_toString short, fun raw => ofText_eq_text⟩
  obtain ⟨comma, listed⟩ := enumerates.read several
  rw [ofText_of_comma comma, listed]

/-- Two items that look like values of other kinds with much around them, an integer, and a text with an exponent. -/
theorem ofText_comes_through_cases :
    Enumerates ["", " 1.5\t", "\u3000", "TRUE"] ["1.5", "TRUE"] ∧
      ofText (String.intercalate "," ["", " 1.5\t", "\u3000", "TRUE"]) = .list [.text "1.5", .text "TRUE"] ∧
      (Nat.toDigits 10 (-7 : Int).natAbs).length ≤ 4300 ∧ ofText (toString (-7 : Int)) = .int (-7) ∧
      ofText "1e5" = .text "1e5" := by
  obtain ⟨lists, integers, texts⟩ := ofText_comes_through
  have point : IsItem "1.5" := ⟨by decide, by decide, by decide, by decide⟩
  have word : IsItem "TRUE" := ⟨by decide, by decide, by decide, by decide⟩
  have last : Enumerates ["TRUE"] ["TRUE"] := @Enumerates.item "" "TRUE" "" [] [] word (by decide) (by decide) .nil
  have enumerates : Enumerates ["", " 1.5\t", "\u3000", "TRUE"] ["1.5", "TRUE"] :=
    .blank (by decide) (@Enumerates.item " " "1.5" "\t" _ _ point (by decide) (by decide) (.blank (by decide) last))
  exact ⟨enumerates, lists _ _ enumerates (by decide), by decide, integers (-7) (by decide),
    (texts "1e5").mpr (by decide +kernel)⟩

end ComLayout.Value
