import ComLayout.Proofs.Number.Decimal
import ComLayout.Report.Json
import ComLayout.Toml.Quoted
import Mathlib.Algebra.Group.Nat.Defs
import Mathlib.Data.List.Forall2

/-!
# Reading a JSON text back

A reader goes through a text character by character. It takes up tokens (marks, texts between quotes and bare
words) and puts values together from them. White space may stand around every token. The values are those of
reports: `null`, integers, texts, lists and objects, so a text that holds another number or a truth value is
refused like one that is malformed. Every value is read back from its written form.
-/

namespace ComLayout.Json

open Text

section Tokens

/-- A token of a JSON text. -/
inductive Token where
  | mark (c : Char)
  | null
  | int (n : Int)
  | text (s : List Char)
deriving DecidableEq

/-- White space between tokens. -/
def isSpace (c : Char) : Bool := c == ' ' || c == '\t' || c == '\n' || c == '\r'

/-- A mark that opens, closes or divides a list or an object. -/
def isMark (c : Char) : Bool := ['[', ']', '\x7b', '\x7d', ',', ':'].contains c

/-- A character that ends a bare word. -/
def endsWord (c : Char) : Bool := isSpace c || isMark c

/-- The number that digits spell, without a zero in front of others. -/
def natOf? (digits : List Char) : Option Nat :=
  if digits ≠ [] ∧ digits.all Char.isDigit ∧ (digits.head? = some '0' → digits.length = 1) then
    some (Nat.ofDigitChars 10 digits 0)
  else none

/-- The integer that a word spells. A minus may stand in front of its digits. -/
def intOf? : List Char → Option Int
  | '-' :: digits => (natOf? digits).map fun n : Nat => -(n : Int)
  | digits => (natOf? digits).map fun n : Nat => (n : Int)

/-- The token that a bare word spells. -/
def wordToken? (word : List Char) : Option Token :=
  if word = "null".toList then some .null else (intOf? word).map .int

/-- The character behind a backslash stands for this code point. -/
def plainEscape? : Char → Option Nat
  | '"' => some 0x22
  | '\\' => some 0x5C
  | '/' => some 0x2F
  | 'b' => some 0x08
  | 'f' => some 0x0C
  | 'n' => some 0x0A
  | 'r' => some 0x0D
  | 't' => some 0x09
  | _ => none

/-- The text of code points, some of which are pairs of surrogates, behind a high surrogate if there is one. No
surrogate stands alone. -/
def textOf? : (high : Option Nat) → List Nat → Option (List Char)
  | none, [] => some []
  | some _, [] => none
  | none, unit :: rest =>
    if 0xD800 ≤ unit ∧ unit < 0xDC00 then textOf? (some unit) rest
    else if unit.isValidChar then (textOf? none rest).map (Char.ofNat unit :: ·)
    else none
  | some high, low :: rest =>
    if 0xDC00 ≤ low ∧ low < 0xE000 then
      (textOf? none rest).map (Char.ofNat (0x10000 + 0x400 * (high - 0xD800) + (low - 0xDC00)) :: ·)
    else none

end Tokens

section Values

/-- A list or an object that has been opened, with what has been read of it. In an object the value for a key
follows. -/
inductive Frame where
  | list (items : List Json)
  | entry (entries : List (List Char × Json)) (name : List Char)

/-- What has been read, and what may follow: a value, a key, the colon behind a key, what divides or closes a
list or an object, or nothing more. -/
inductive State where
  | value (frames : List Frame)
  | key (entries : List (List Char × Json)) (frames : List Frame)
  | colon (entries : List (List Char × Json)) (name : List Char) (frames : List Frame)
  | inList (items : List Json) (frames : List Frame)
  | inObject (entries : List (List Char × Json)) (frames : List Frame)
  | finished (value : Json)

/-- A value has been read in full. -/
def State.complete (value : Json) : List Frame → State
  | [] => .finished value
  | .list items :: frames => .inList (items ++ [value]) frames
  | .entry entries name :: frames => .inObject (entries ++ [(name, value)]) frames

/-- Take up a token. A list or an object is closed behind a member, or at once. -/
def State.feed? : Token → State → Option State
  | .null, .value frames => some (complete .null frames)
  | .int n, .value frames => some (complete (.int n) frames)
  | .text s, .value frames => some (complete (.text s) frames)
  | .text s, .key entries frames => some (.colon entries s frames)
  | .mark ':', .colon entries name frames => some (.value (.entry entries name :: frames))
  | .mark '[', .value frames => some (.value (.list [] :: frames))
  | .mark ',', .inList items frames => some (.value (.list items :: frames))
  | .mark ']', .inList items frames => some (complete (.list items) frames)
  | .mark ']', .value (.list [] :: frames) => some (complete (.list []) frames)
  | .mark '\x7b', .value frames => some (.key [] frames)
  | .mark ',', .inObject entries frames => some (.key entries frames)
  | .mark '\x7d', .inObject entries frames => some (complete (.object entries) frames)
  | .mark '\x7d', .key [] frames => some (complete (.object []) frames)
  | _, _ => none

end Values

/-- Where within a token a reader stands: between two, in a bare word, in a text, behind a backslash in one, or
among the digits of an escape. -/
inductive Mode where
  | between
  | word (cs : List Char)
  | text (units : List Nat)
  | escape (units : List Nat)
  | digits (units : List Nat) (read : List Char)

/-- A reader: what it has put together from whole tokens, and the token that it is in. -/
structure Reader where
  state : State
  mode : Mode

namespace Reader

/-- Take up a token and go on behind it. -/
def take? (state : State) (token : Token) : Option Reader := (State.feed? token state).map (⟨·, .between⟩)

/-- Read a character between two tokens. -/
def first? (state : State) (c : Char) : Option Reader :=
  if isSpace c then some ⟨state, .between⟩
  else if isMark c then take? state (.mark c)
  else if c = '"' then some ⟨state, .text []⟩
  else some ⟨state, .word [c]⟩

/-- Read a character. -/
def step? (r : Reader) (c : Char) : Option Reader :=
  match r.mode with
  | .between => first? r.state c
  | .word cs =>
    if endsWord c then do
      let token ← wordToken? cs
      let state ← r.state.feed? token
      first? state c
    else some ⟨r.state, .word (cs ++ [c])⟩
  | .text units =>
    if c = '"' then (textOf? none units).bind fun s => take? r.state (.text s)
    else if c = '\\' then some ⟨r.state, .escape units⟩
    else if c.toNat < 0x20 then none
    else some ⟨r.state, .text (units ++ [c.toNat])⟩
  | .escape units =>
    if c = 'u' then some ⟨r.state, .digits units []⟩
    else (plainEscape? c).map fun unit => ⟨r.state, .text (units ++ [unit])⟩
  | .digits units read =>
    if read.length < 3 then some ⟨r.state, .digits units (read ++ [c])⟩
    else (Toml.hexNumber? (read ++ [c])).map fun unit => ⟨r.state, .text (units ++ [unit])⟩

/-- Read several characters. -/
def run? (r : Reader) (cs : List Char) : Option Reader := cs.foldlM step? r

end Reader

/-- The value that a text is the written form of. White space behind the text ends its last token. -/
def read? (text : List Char) : Option Json :=
  match Reader.run? ⟨.value [], .between⟩ (text ++ [' ']) with
  | some ⟨.finished value, .between⟩ => some value
  | _ => none

section Texts

variable {state : State}

/-- Reading one text after the other. -/
theorem Reader.run?_append (r : Reader) (front back : List Char) :
    r.run? (front ++ back) = (r.run? front).bind (·.run? back) := List.foldlM_append

theorem Reader.run?_cons (r : Reader) (c : Char) (cs : List Char) :
    r.run? (c :: cs) = (r.step? c).bind (·.run? cs) := List.foldlM_cons

/-- The code points that a character is written as: itself, or a pair of surrogates beyond the basic plane. -/
def unitsOf (c : Char) : List Nat :=
  if c.toNat < 0x10000 then [c.toNat]
  else [0xD800 + (c.toNat - 0x10000) / 0x400, 0xDC00 + (c.toNat - 0x10000) % 0x400]

/-- The code points of a character are read as that character. -/
theorem textOf?_unitsOf (c : Char) (rest : List Nat) :
    textOf? none (unitsOf c ++ rest) = (textOf? none rest).map (c :: ·) := by
  have valid : c.toNat.isValidChar := c.valid
  have bounds : c.toNat < 0xD800 ∨ (0xDFFF < c.toNat ∧ c.toNat < 0x110000) := valid
  rw [unitsOf]
  split
  case isTrue basic =>
    have single : ¬ (0xD800 ≤ c.toNat ∧ c.toNat < 0xDC00) := by omega
    rw [List.singleton_append, textOf?, if_neg single, if_pos valid, Char.ofNat_toNat]
  case isFalse beyond =>
    generalize above : c.toNat - 0x10000 = n
    have high : 0xD800 ≤ 0xD800 + n / 0x400 ∧ 0xD800 + n / 0x400 < 0xDC00 := by omega
    have low : 0xDC00 ≤ 0xDC00 + n % 0x400 ∧ 0xDC00 + n % 0x400 < 0xE000 := by omega
    have joined : 0x10000 + 0x400 * (0xD800 + n / 0x400 - 0xD800) + (0xDC00 + n % 0x400 - 0xDC00) = c.toNat := by
      omega
    rw [List.cons_append, List.singleton_append, textOf?, if_pos high, textOf?, if_pos low, joined, Char.ofNat_toNat]

/-- The code points of a text are read as that text. -/
theorem textOf?_flatMap (s : List Char) : textOf? none (s.flatMap unitsOf) = some s := by
  induction s with
  | nil => rfl
  | cons c rest inductionHypothesis => rw [List.flatMap_cons, textOf?_unitsOf, inductionHypothesis, Option.map_some]

/-- A number is read from its digits in base sixteen. -/
theorem hexNumber?_hexDigits (width n : Nat) (fits : n < 16 ^ width) :
    Toml.hexNumber? (hexDigits width n) = some n := by
  have value : ∀ d < 16, Toml.hexValue? (hexDigit d) = some d := by decide
  induction width generalizing n with
  | zero =>
    obtain rfl : n = 0 := by omega
    rfl
  | succ width inductionHypothesis =>
    have front : n / 16 < 16 ^ width := by omega
    have onward : Toml.hexNumber? (hexDigits (width + 1) n) =
        (Toml.hexNumber? (hexDigits width (n / 16))).bind fun m =>
          (Toml.hexValue? (hexDigit (n % 16))).map (16 * m + ·) := by
      rw [hexDigits, Toml.hexNumber?, List.foldlM_append]
      simp [Toml.hexNumber?]
    rw [onward, inductionHypothesis _ front, Option.bind_some, value _ (by omega), Option.map_some]
    congr 1
    omega

/-- The escape for a unit is read as that unit. -/
theorem run?_unitEscape (units : List Nat) {unit : Nat} (fits : unit < 0x10000) :
    Reader.run? ⟨state, .text units⟩ (unitEscape unit) = some ⟨state, .text (units ++ [unit])⟩ := by
  have number := hexNumber?_hexDigits 4 unit fits
  obtain ⟨a, b, c, d, spelled⟩ : ∃ a b c d, hexDigits 4 unit = [a, b, c, d] := ⟨_, _, _, _, rfl⟩
  rw [unitEscape, spelled]
  rw [spelled] at number
  simp [Reader.run?, Reader.step?, number]

/-- The escapes for a character are read as its code points. -/
theorem run?_escape (units : List Nat) (c : Char) :
    Reader.run? ⟨state, .text units⟩ (escape c) = some ⟨state, .text (units ++ unitsOf c)⟩ := by
  rw [escape, unitsOf]
  split
  case isTrue basic => exact run?_unitEscape units basic
  case isFalse beyond =>
    have valid : c.toNat < 0xD800 ∨ (0xDFFF < c.toNat ∧ c.toNat < 0x110000) := c.valid
    generalize above : c.toNat - 0x10000 = n
    have high : 0xD800 + n / 0x400 < 0x10000 := by omega
    have low : 0xDC00 + n % 0x400 < 0x10000 := by omega
    rw [Reader.run?_append, run?_unitEscape units high, Option.bind_some, run?_unitEscape _ low, List.append_assoc,
      List.singleton_append]

/-- The written form of a character is read as its code points. Five characters besides the quote and the backslash
have short escapes of their own. -/
theorem run?_written (units : List Nat) (c : Char) :
    Reader.run? ⟨state, .text units⟩ (written c) = some ⟨state, .text (units ++ unitsOf c)⟩ := by
  have short {escaped : Char} {unit : Nat} (known : plainEscape? escaped = some unit) (other : escaped ≠ 'u')
      (same : unitsOf c = [unit]) :
      Reader.run? ⟨state, .text units⟩ ['\\', escaped] = some ⟨state, .text (units ++ unitsOf c)⟩ := by
    simp [Reader.run?, Reader.step?, known, other, same]
  unfold written
  split
  case isTrue special =>
    simp only [Bool.or_eq_true, beq_iff_eq] at special
    rcases special with rfl | rfl
    · exact short rfl (by decide) (by decide)
    · exact short rfl (by decide) (by decide)
  case isFalse plain =>
    iterate 5
      split
      case isTrue same =>
        obtain rfl := eq_of_beq same
        exact short rfl (by decide) (by decide)
    split
    case isTrue visible =>
      have lowest : 0x20 ≤ c.toNat := visible.1
      have highest : c.toNat ≤ 0x7E := visible.2
      obtain ⟨quote, backslash⟩ : c ≠ '"' ∧ c ≠ '\\' := by simpa using plain
      have control : ¬ c.toNat < 0x20 := by omega
      have basic : c.toNat < 0x10000 := by omega
      simp [Reader.run?, Reader.step?, quote, backslash, control, unitsOf, basic]
    case isFalse => exact run?_escape units c

/-- The written form of a text is read as that text. -/
theorem run?_quote (s : List Char) : Reader.run? ⟨state, .between⟩ (quote s) = Reader.take? state (.text s) := by
  have inside (units : List Nat) : Reader.run? ⟨state, .text units⟩ (s.flatMap written) =
      some ⟨state, .text (units ++ s.flatMap unitsOf)⟩ := by
    induction s generalizing units with
    | nil => simp [Reader.run?]
    | cons c rest inductionHypothesis =>
      rw [List.flatMap_cons, Reader.run?_append, run?_written, Option.bind_some, inductionHypothesis]
      simp
  have opened : Reader.run? ⟨state, .between⟩ (quote s) =
      (Reader.run? ⟨state, .text []⟩ (s.flatMap written)).bind (·.run? ['"']) := by
    rw [← Reader.run?_append]
    rfl
  rw [opened, inside]
  simp [Reader.run?, Reader.step?, textOf?_flatMap]

end Texts

section Numbers

/-- Only the digits of zero begin with a zero. -/
theorem eq_zero_of_head?_toDigits (n : Nat) (zero : (Nat.toDigits 10 n).head? = some '0') : n = 0 := by
  induction n using Nat.strongRecOn with
  | ind n inductionHypothesis =>
    rcases Nat.lt_or_ge n 10 with single | several
    · have inverse : ∀ d < 10, Nat.digitChar d = '0' → d = 0 := by decide
      rw [Nat.toDigits_of_lt_base single] at zero
      exact inverse n single (by simpa using zero)
    · rw [Nat.toDigits_of_base_le (by decide) several, List.head?_append_of_ne_nil _ Nat.toDigits_ne_nil] at zero
      have front := inductionHypothesis (n / 10) (by omega) zero
      omega

/-- The digits of a number spell it. -/
theorem natOf?_toDigits (n : Nat) : natOf? (Nat.toDigits 10 n) = some n := by
  have digits : (Nat.toDigits 10 n).all Char.isDigit := by
    rw [List.all_eq_true]
    exact fun c mem => Nat.isDigit_of_mem_toDigits (by decide) (by decide) mem
  have leading (zero : (Nat.toDigits 10 n).head? = some '0') : (Nat.toDigits 10 n).length = 1 := by
    rw [eq_zero_of_head?_toDigits n zero]
    rfl
  rw [natOf?, if_pos ⟨Nat.toDigits_ne_nil, digits, leading⟩, Nat.ofDigitChars_ten_toDigits]

/-- The written form of an integer spells it. -/
theorem intOf?_toString (n : Int) : intOf? (toString n).toList = some n := by
  rw [Number.toList_toString_int]
  split
  case isTrue negative =>
    rw [List.singleton_append, intOf?, natOf?_toDigits, Option.map_some]
    congr 1
    omega
  case isFalse =>
    obtain ⟨first, rest, spelled⟩ := List.exists_cons_of_ne_nil (Nat.toDigits_ne_nil (n := n.natAbs) (b := 10))
    have digit : first.isDigit = true :=
      Nat.isDigit_of_mem_toDigits (b := 10) (n := n.natAbs) (by decide) (by decide) (by simp [spelled])
    have other : first ≠ '-' := by
      rintro rfl
      exact absurd digit (by decide)
    rw [List.nil_append, spelled]
    unfold intOf?
    split
    case h_1 minus => exact absurd (List.cons.inj minus).1 other
    case h_2 =>
      rw [← spelled, natOf?_toDigits, Option.map_some]
      congr 1
      omega

/-- What is written item by item is read item by item. -/
theorem mapM_map {α β : Type} {read : β → Option α} {write : α → β} {items : List α}
    (back : ∀ item ∈ items, read (write item) = some item) : (items.map write).mapM read = some items := by
  induction items with
  | nil => rfl
  | cons item rest inductionHypothesis =>
    obtain ⟨here, behind⟩ := List.forall_mem_cons.mp back
    simp [here, inductionHypothesis behind]

end Numbers

section Leading

variable {s t u : State} {cs : List Char}

/-- A reader has come to a state as soon as the word that it may be in has ended. -/
def Reader.Settles (r : Reader) (state : State) : Prop := ∀ c, endsWord c = true → r.step? c = Reader.first? state c

/-- A text leads from one state to another. A word at its end need not have ended. -/
def Leads (s : State) (cs : List Char) (t : State) : Prop :=
  ∃ r, Reader.run? ⟨s, .between⟩ cs = some r ∧ r.Settles t

/-- What follows a text is read from the state that the text leads to. -/
theorem Leads.run? {c : Char} (led : Leads s cs t) (ends : endsWord c = true) (more : List Char) :
    Reader.run? ⟨s, .between⟩ (cs ++ c :: more) = Reader.run? ⟨t, .between⟩ (c :: more) := by
  obtain ⟨r, read, settles⟩ := led
  rw [Reader.run?_append, read, Option.bind_some, Reader.run?_cons, settles c ends, Reader.run?_cons]
  rfl

/-- Two texts lead on one after the other, if words end where they meet. -/
theorem Leads.trans {c : Char} {more : List Char} (led : Leads s cs t) (ends : endsWord c = true)
    (onward : Leads t (c :: more) u) : Leads s (cs ++ c :: more) u := by
  obtain ⟨r, read, settles⟩ := onward
  exact ⟨r, (led.run? ends more).trans read, settles⟩

/-- Nothing leads to where a reader stands. -/
theorem Leads.nil (s : State) : Leads s [] s := ⟨_, rfl, fun _ _ => rfl⟩

/-- White space is passed over between tokens. -/
theorem run?_blank {blanks : List Char} (blank : ∀ c ∈ blanks, isSpace c = true) :
    Reader.run? ⟨s, .between⟩ blanks = some ⟨s, .between⟩ := by
  induction blanks with
  | nil => rfl
  | cons c rest inductionHypothesis =>
    obtain ⟨space, spaces⟩ := List.forall_mem_cons.mp blank
    rw [Reader.run?_cons, Reader.step?, Reader.first?, if_pos space, Option.bind_some, inductionHypothesis spaces]

/-- White space leads nowhere. -/
theorem Leads.blank {blanks : List Char} (blank : ∀ c ∈ blanks, isSpace c = true) (onward : Leads s cs t) :
    Leads s (blanks ++ cs) t := by
  obtain ⟨r, read, settles⟩ := onward
  exact ⟨r, by rw [Reader.run?_append, run?_blank blank, Option.bind_some, read], settles⟩

/-- A line break and an indentation are white space. -/
theorem isSpace_of_mem_breakAt (level : Nat) : ∀ c ∈ breakAt level, isSpace c = true := by
  simp [breakAt, isSpace]

/-- A mark leads to the state behind it. -/
theorem Leads.mark {c : Char} (mark : isMark c = true) (fed : s.feed? (.mark c) = some t) (onward : Leads t cs u) :
    Leads s (c :: cs) u := by
  obtain ⟨r, read, settles⟩ := onward
  refine ⟨r, ?_, settles⟩
  have solid : isSpace c = false := by
    have apart : ∀ d ∈ ['[', ']', '\x7b', '\x7d', ',', ':'], isSpace d = false := by decide
    exact apart c (List.contains_iff_mem.mp mark)
  simp [Reader.run?_cons, Reader.step?, Reader.first?, solid, mark, Reader.take?, fed, read]

/-- A text between quotes leads to the state behind it. -/
theorem Leads.quote (text : List Char) (fed : s.feed? (.text text) = some t) : Leads s (quote text) t := by
  refine ⟨⟨t, .between⟩, ?_, fun _ _ => rfl⟩
  rw [run?_quote, Reader.take?, fed, Option.map_some]

/-- A word goes on with what does not end it. -/
theorem run?_word (solid : ∀ c ∈ cs, endsWord c = false) (front : List Char) :
    Reader.run? ⟨s, .word front⟩ cs = some ⟨s, .word (front ++ cs)⟩ := by
  induction cs generalizing front with
  | nil => simp [Reader.run?]
  | cons c rest inductionHypothesis =>
    obtain ⟨here, others⟩ := List.forall_mem_cons.mp solid
    have step : Reader.step? ⟨s, .word front⟩ c = some ⟨s, .word (front ++ [c])⟩ := by simp [Reader.step?, here]
    rw [Reader.run?_cons, step, Option.bind_some, inductionHypothesis others, List.append_assoc,
      List.singleton_append]

/-- A bare word leads to the state behind it. -/
theorem Leads.word {token : Token} (spelled : wordToken? cs = some token)
    (plain : ∀ c ∈ cs, endsWord c = false ∧ c ≠ '"') (fed : s.feed? token = some t) : Leads s cs t := by
  refine ⟨⟨s, .word cs⟩, ?_, fun c ends => by simp [Reader.step?, ends, spelled, fed]⟩
  cases cs with
  | nil => exact absurd spelled (by simp [wordToken?, intOf?, natOf?])
  | cons first rest =>
    obtain ⟨⟨solid, quote⟩, others⟩ := List.forall_mem_cons.mp plain
    have begun : Reader.step? ⟨s, .between⟩ first = some ⟨s, .word [first]⟩ := by
      obtain ⟨space, mark⟩ : isSpace first = false ∧ isMark first = false := by simpa [endsWord] using solid
      simp [Reader.step?, Reader.first?, space, mark, quote]
    rw [Reader.run?_cons, begun, Option.bind_some, run?_word (fun c mem => (others c mem).1) [first],
      List.singleton_append]

end Leading

section Written

/-- A digit neither ends a word nor begins a text. -/
theorem solid_of_isDigit {c : Char} (digit : c.isDigit = true) : endsWord c = false ∧ c ≠ '"' := by
  let others := [' ', '\t', '\n', '\r', '[', ']', '\x7b', '\x7d', ',', ':', '"']
  have noDigit : ∀ d ∈ others, d.isDigit = false := by decide
  have other : c ∉ others := fun mem => absurd digit (by simp [noDigit c mem])
  simpa [others, endsWord, isSpace, isMark, and_assoc] using other

/-- The word for an integer neither ends early nor begins a text. -/
theorem solid_toString (n : Int) : ∀ c ∈ (toString n).toList, endsWord c = false ∧ c ≠ '"' := by
  intro c mem
  rcases Number.mem_toString_int mem with rfl | digit
  · decide
  · exact solid_of_isDigit digit

/-- The word for an integer is read as that integer. -/
theorem wordToken?_toString (n : Int) : wordToken? (toString n).toList = some (.int n) := by
  have spelled := intOf?_toString n
  have other : (toString n).toList ≠ "null".toList := by
    intro same
    rw [same] at spelled
    exact Option.some_ne_none n spelled.symm
  rw [wordToken?, if_neg other, spelled, Option.map_some]

section Members

variable {α : Type} {start inside : List α → State}

/-- The text of a member leads from where one is expected behind those before it to where it has been read. -/
def IsMember (start inside : List α → State) (a : α) (cs : List Char) : Prop :=
  ∀ done, Leads (start done) cs (inside (done ++ [a]))

/-- Members with commas between them are read in order. -/
theorem leads_members (divides : ∀ done, (inside done).feed? (.mark ',') = some (start done)) (level : Nat)
    {a : α} {cs : List Char} {as : List α} {css : List (List Char)} (first : IsMember start inside a cs)
    (others : List.Forall₂ (IsMember start inside) as css) (done : List α) :
    Leads (start done) (List.intercalate (',' :: breakAt level) (cs :: css)) (inside (done ++ a :: as)) := by
  induction others generalizing a cs done with
  | nil => simpa using first done
  | cons second others inductionHypothesis =>
    have onward := inductionHypothesis second (done ++ [a])
    rw [List.append_assoc, List.singleton_append] at onward
    rw [List.intercalate_cons_cons, List.append_assoc, List.cons_append]
    exact (first done).trans (by decide) ((onward.blank (isSpace_of_mem_breakAt level)).mark (by decide) (divides _))

/-- Members between brackets are read in order. -/
theorem leads_enclose {s t : State} {left right : Char} {as : List α} {css : List (List Char)}
    (opening : isMark left = true) (closing : isMark right = true)
    (opens : s.feed? (.mark left) = some (start [])) (closes : (inside as).feed? (.mark right) = some t)
    (closesEmpty : as = [] → (start []).feed? (.mark right) = some t)
    (divides : ∀ done, (inside done).feed? (.mark ',') = some (start done)) (level : Nat)
    (members : List.Forall₂ (IsMember start inside) as css) : Leads s (enclose left right level css) t := by
  have ends : endsWord right = true := by simp [endsWord, closing]
  cases members with
  | nil => exact ((Leads.nil t).mark closing (closesEmpty rfl)).mark opening opens
  | cons first others =>
    have last := ((Leads.nil t).mark closing closes).blank (isSpace_of_mem_breakAt level)
    have all := (leads_members divides (level + 1) first others []).trans (by decide) last
    have read := (all.blank (isSpace_of_mem_breakAt (level + 1))).mark opening opens
    simpa [enclose, breakAt] using read

end Members

mutual

/-- The written form of a value is read as that value. -/
theorem leads_renderAt (level : Nat) (value : Json) (frames : List Frame) :
    Leads (.value frames) (renderAt level value) (.complete value frames) := by
  cases value with
  | null =>
    rw [renderAt]
    have spelled : wordToken? "null".toList = some .null := by decide
    exact .word spelled (by decide) rfl
  | int n =>
    rw [renderAt]
    exact .word (wordToken?_toString n) (solid_toString n) rfl
  | text s =>
    rw [renderAt]
    exact .quote s rfl
  | list items =>
    rw [renderAt]
    exact leads_enclose rfl rfl rfl rfl (by rintro rfl; rfl) (fun _ => rfl) level
      (members_renderItems (level + 1) items frames)
  | object entries =>
    rw [renderAt]
    exact leads_enclose rfl rfl rfl rfl (by rintro rfl; rfl) (fun _ => rfl) level
      (members_renderEntries (level + 1) entries frames)

/-- The written forms of items are members of a list. -/
theorem members_renderItems (level : Nat) (items : List Json) (frames : List Frame) :
    List.Forall₂ (IsMember (fun done => .value (.list done :: frames)) (.inList · frames)) items
      (renderItems level items) := by
  cases items with
  | nil =>
    rw [renderItems]
    exact .nil
  | cons item rest =>
    rw [renderItems]
    exact .cons (fun done => leads_renderAt level item (.list done :: frames)) (members_renderItems level rest frames)

/-- The written forms of entries are members of an object. -/
theorem members_renderEntries (level : Nat) (entries : List (List Char × Json)) (frames : List Frame) :
    List.Forall₂ (IsMember (.key · frames) (.inObject · frames)) entries (renderEntries level entries) := by
  cases entries with
  | nil =>
    rw [renderEntries]
    exact .nil
  | cons entry rest =>
    obtain ⟨name, value⟩ := entry
    rw [renderEntries]
    refine .cons (fun done => ?_) (members_renderEntries level rest frames)
    have read := leads_renderAt level value (.entry done name :: frames)
    have named : Leads (.key done frames) (quote name) (.colon done name frames) := .quote name rfl
    have space : ∀ c ∈ [' '], isSpace c = true := by decide
    exact named.trans (by decide) ((read.blank space).mark (by decide) rfl)

end

/-- The written form of a value is read as that value, also with white space behind it. -/
theorem read?_render (value : Json) {blanks : List Char} (blank : ∀ c ∈ blanks, isSpace c = true) :
    read? (render value ++ blanks) = some value := by
  have written : Leads (.value []) (render value) (.finished value) := leads_renderAt 0 value []
  have spaces : ∀ c ∈ blanks ++ [' '], isSpace c = true := by
    rw [List.forall_mem_append]
    exact ⟨blank, by decide⟩
  obtain ⟨c, more, behind⟩ := List.exists_cons_of_ne_nil (show blanks ++ [' '] ≠ [] by simp)
  rw [behind] at spaces
  have ends : endsWord c = true := by simp [endsWord, spaces c List.mem_cons_self]
  rw [read?, List.append_assoc, behind, written.run? ends, run?_blank spaces]

/-- A comma without a member behind it, a zero in front of digits, half a pair of surrogates and a second value are
refused. -/
example : ["[1,]", "01", "\"\\ud83d\"", "1 2"].all (fun s => (read? s.toList).isNone) = true := by decide

end Written

end ComLayout.Json
