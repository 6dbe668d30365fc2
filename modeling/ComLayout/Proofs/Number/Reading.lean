import ComLayout.Number.Reader
import ComLayout.Proofs.Number.Decimal
import ComLayout.Proofs.Text.Ascii
import ComLayout.Proofs.Text.Trim

/-!
# What is read as a number

A text that is read as a number holds digits and the marks of numbers, and white space around them. Of ASCII it holds
nothing else, so no text with another mark is a number, whatever its parts look like. The written form of an integer
is read back as long as it has no more digits than an integer may have.
-/

namespace ComLayout.Number

open Text

section Foreign

/-- The marks that may stand beside digits in a number. -/
def marks : List Char := ['+', '-', '.', 'e', 'E', '_']

/-- A character of ASCII that stands in no number and not around one. -/
structure Foreign (c : Char) : Prop where
  ascii : c.toNat < 128
  solid : isAsciiBlank c = false
  noDigit : c.isDigit = false
  noMark : c ∉ marks

/-- A foreign character is none of the marks. -/
theorem Foreign.ne {c : Char} (foreign : Foreign c) {mark : Char} (listed : mark ∈ marks) : c ≠ mark := by
  rintro rfl
  exact foreign.noMark listed

variable {c : Char} {cs : List Char}

/-- A foreign character stays in the plain form. -/
theorem Foreign.mem_plainForm (foreign : Foreign c) (held : c ∈ cs) : c ∈ plainForm cs := by
  have own : plainChar c = c := if_pos foreign.ascii
  have mapped : c ∈ cs.map plainChar := List.mem_map.mpr ⟨c, held, own⟩
  have front := List.mem_reverse.mpr (mem_dropWhile mapped foreign.solid)
  exact List.mem_reverse.mpr (mem_dropWhile front foreign.solid)

/-- Only underscores are left out where digits are joined. -/
theorem mem_joinDigits {afterDigit : Bool} {joined : List Char} (joins : joinDigits afterDigit cs = some joined)
    (held : c ∈ cs) (other : c ≠ '_') : c ∈ joined := by
  induction cs generalizing afterDigit joined with
  | nil => exact absurd held List.not_mem_nil
  | cons d rest inductionHypothesis =>
    rw [joinDigits] at joins
    split at joins
    next underscore =>
      split at joins
      · have here : c ≠ d := fun same => other (same.trans (beq_iff_eq.mp underscore))
        exact inductionHypothesis joins ((List.mem_cons.mp held).resolve_left here)
      · cases joins
    next =>
      obtain ⟨others, onward, rfl⟩ := Option.map_eq_some_iff.mp joins
      rcases List.mem_cons.mp held with rfl | behind
      · exact List.mem_cons_self
      · exact List.mem_cons_of_mem d (inductionHypothesis onward behind)

/-- A foreign character stands behind the sign. -/
theorem Foreign.mem_splitSign (foreign : Foreign c) (held : c ∈ cs) : c ∈ (splitSign cs).2 := by
  unfold splitSign
  split
  · exact (List.mem_cons.mp held).resolve_left (foreign.ne (by decide))
  · exact (List.mem_cons.mp held).resolve_left (foreign.ne (by decide))
  · exact held

/-- A foreign character is not among digits. -/
theorem Foreign.not_mem_digits (foreign : Foreign c) (digits : cs.all Char.isDigit = true) : c ∉ cs := by
  intro held
  have digit := List.all_eq_true.mp digits c held
  rw [foreign.noDigit] at digit
  exact Bool.noConfusion digit

/-- A text with a foreign character is no integer. -/
theorem Foreign.readInt?_eq_none (foreign : Foreign c) (held : c ∈ cs) : readInt? cs = none := by
  have body := foreign.mem_splitSign (foreign.mem_plainForm held)
  cases joins : joinDigits false (splitSign (plainForm cs)).2 with
  | none => simp only [readInt?, joins, Option.bind_eq_bind, Option.bind_none]
  | some digits =>
    have among := mem_joinDigits joins body (foreign.ne (by decide))
    have noDigits : digits.all Char.isDigit = false := by
      rw [Bool.eq_false_iff]
      exact fun all => foreign.not_mem_digits all among
    simp only [readInt?, joins, Option.bind_eq_bind, Option.bind_some, noDigits, Bool.and_false, Bool.false_and,
      Bool.false_eq_true, if_false]

/-- No foreign character stands in an exponent. -/
theorem Foreign.readExponent?_eq_none (foreign : Foreign c) (held : c ∈ cs) : readExponent? cs = none := by
  cases cs with
  | nil => exact absurd held List.not_mem_nil
  | cons mark rest =>
    simp only [readExponent?, Bool.and_eq_true, Bool.or_eq_true, beq_iff_eq]
    refine if_neg ?_
    rintro ⟨⟨isMark, -⟩, digits⟩
    have behind : c ∈ rest := by
      refine (List.mem_cons.mp held).resolve_left ?_
      rintro rfl
      exact isMark.elim (foreign.ne (by decide)) (foreign.ne (by decide))
    exact foreign.not_mem_digits digits (foreign.mem_splitSign behind)

/-- A foreign character stands behind the digits of a fraction. -/
theorem Foreign.mem_splitFraction (foreign : Foreign c) (held : c ∈ cs) : c ∈ (splitFraction cs).2 := by
  unfold splitFraction
  split
  next rest => exact mem_dropWhile ((List.mem_cons.mp held).resolve_left (foreign.ne (by decide))) foreign.noDigit
  next => exact held

/-- A text with a foreign character is no real. -/
theorem Foreign.readReal?_eq_none (foreign : Foreign c) (held : c ∈ cs) : readReal? cs = none := by
  rw [readReal?]
  cases joins : joinDigits false (plainForm cs) with
  | none => rfl
  | some plain =>
    have among := mem_joinDigits joins (foreign.mem_plainForm held) (foreign.ne (by decide))
    have behind := foreign.mem_splitFraction (mem_dropWhile (foreign.mem_splitSign among) foreign.noDigit)
    simp [realOfPlain?, foreign.readExponent?_eq_none behind]

end Foreign

section Written

/-- A text that holds neither white space nor other scripts is plain already. -/
theorem plainForm_of_solid {cs : List Char} (solid : ∀ c ∈ cs, c.toNat < 128 ∧ isAsciiBlank c = false) :
    plainForm cs = cs := by
  have same : cs.map plainChar = cs := by
    have each : cs.map plainChar = cs.map id := List.map_congr_left fun c held => if_pos (solid c held).1
    rw [each, List.map_id]
  have ends (c? : Option Char) (among : ∀ c, c? = some c → c ∈ cs) : c?.any isAsciiBlank = false := by
    cases c? with
    | none => rfl
    | some c => exact (solid c (among c rfl)).2
  rw [plainForm, same, dropWhile_of_head? (ends _ fun c => List.mem_of_head?),
    dropTail_of_getLast? (ends _ fun c => List.mem_of_getLast?)]

/-- Where no underscore stands, none is left out. -/
theorem joinDigits_of_not_mem {cs : List Char} (plain : '_' ∉ cs) (afterDigit : Bool) :
    joinDigits afterDigit cs = some cs := by
  induction cs generalizing afterDigit with
  | nil => rfl
  | cons c rest inductionHypothesis =>
    rw [List.mem_cons, not_or] at plain
    have other : (c == '_') = false := beq_false_of_ne fun same => plain.1 same.symm
    rw [joinDigits, other, if_neg Bool.false_ne_true, inductionHypothesis plain.2]
    rfl

/-- The sign of the written form of an integer, and its digits. -/
theorem splitSign_toString (n : Int) :
    splitSign (toString n).toList = (decide (n < 0), Nat.toDigits 10 n.natAbs) := by
  rw [toList_toString_int]
  by_cases negative : n < 0
  · rw [if_pos negative, decide_eq_true negative]
    rfl
  · rw [if_neg negative, decide_eq_false negative, List.nil_append]
    unfold splitSign
    split
    next rest spelled =>
      have digit : '+'.isDigit = true :=
        Nat.isDigit_of_mem_toDigits (b := 10) (n := n.natAbs) (by decide) (by decide) (by simp [spelled])
      exact absurd digit (by decide)
    next rest spelled =>
      have digit : '-'.isDigit = true :=
        Nat.isDigit_of_mem_toDigits (b := 10) (n := n.natAbs) (by decide) (by decide) (by simp [spelled])
      exact absurd digit (by decide)
    next => rfl

/-- What an integer is written with is ASCII, and neither white space nor a letter. -/
theorem class_of_mem_toString {n : Int} {c : Char} (held : c ∈ (toString n).toList) :
    c.toNat < 128 ∧ isAsciiBlank c = false ∧ c.isAlpha = false := by
  have digits : ∀ c : Char, c.toNat < 128 → c.isDigit = true → isAsciiBlank c = false ∧ c.isAlpha = false :=
    forall_ascii (by decide +kernel)
  rcases mem_toString_int held with rfl | digit
  · decide
  · have bounds : 48 ≤ c.toNat ∧ c.toNat ≤ 57 := by simpa [Char.isDigit, UInt32.le_iff_toNat_le] using digit
    have ascii : c.toNat < 128 := by omega
    exact ⟨ascii, digits c ascii digit⟩

/-- The written form of an integer is read as that integer, if it has no more digits than an integer may have. -/
theorem readInt?_toString {n : Int} (short : (Nat.toDigits 10 n.natAbs).length ≤ maxDigits) :
    readInt? (toString n).toList = some n := by
  have digits : ∀ c ∈ Nat.toDigits 10 n.natAbs, c.isDigit = true :=
    fun c held => Nat.isDigit_of_mem_toDigits (by decide) (by decide) held
  have solid : ∀ c ∈ (toString n).toList, c.toNat < 128 ∧ isAsciiBlank c = false :=
    fun c held => ⟨(class_of_mem_toString held).1, (class_of_mem_toString held).2.1⟩
  have whole : '_' ∉ Nat.toDigits 10 n.natAbs := fun held => absurd (digits '_' held) (by decide)
  have accepted : (!(Nat.toDigits 10 n.natAbs).isEmpty && (Nat.toDigits 10 n.natAbs).all Char.isDigit &&
      decide ((Nat.toDigits 10 n.natAbs).length ≤ maxDigits)) = true := by
    simpa [short] using digits
  have value : digitsValue (Nat.toDigits 10 n.natAbs) = n.natAbs := Nat.ofDigitChars_ten_toDigits
  have back : signed (decide (n < 0)) n.natAbs = n := by
    by_cases negative : n < 0
    · simp only [signed, negative, decide_true, if_true]
      omega
    · simp only [signed, negative, decide_false, Bool.false_eq_true, if_false]
      omega
  simp only [readInt?, plainForm_of_solid solid, splitSign_toString, joinDigits_of_not_mem whole, Option.bind_eq_bind,
    Option.bind_some, if_pos accepted, value, back]

end Written

end ComLayout.Number
