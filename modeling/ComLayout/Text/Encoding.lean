import ComLayout.Text.Quoted

/-!
# Encodings of an output

An output puts what is written to it into bytes. An encoding that has no bytes for a character refuses a
text that holds it, and says where it stands. Which characters these are differs from one encoding to the
other, but plain ASCII is never among them.
-/

namespace ComLayout

/-- What an output makes of texts: the words in which it refuses one, none for a text that it can show. -/
structure Encoding where
  refusal? : String → Option String
  plain : ∀ text : String, (∀ c ∈ text.toList, c.toNat < 128) → refusal? text = none

namespace Encoding

/-- The encoding that shows every text. -/
def utf8 : Encoding := ⟨fun _ => none, fun _ _ => rfl⟩

/-- The words for characters beyond a limit: one by its code, several by their offsets. -/
def beyond (name : String) (limit offset : Nat) (stretch : List Char) : String :=
  let place := match stretch with
    | [c] => "character '" ++ String.ofList (Text.numbered c) ++ "' in position " ++ toString offset
    | _ => "characters in position " ++ toString offset ++ "-" ++ toString (offset + stretch.length - 1)
  "'" ++ name ++ "' codec can't encode " ++ place ++ ": ordinal not in range(" ++ toString limit ++ ")"

/-- The encoding of the characters whose codes are below a limit. A text that holds others is refused for the
first of them, and for those that follow it without a gap. -/
def limited (name : String) (limit : Nat) (ascii : 128 ≤ limit) : Encoding where
  refusal? text := (text.toList.findIdx? fun c => limit ≤ c.toNat).map fun offset =>
    beyond name limit offset ((text.toList.drop offset).takeWhile fun c => limit ≤ c.toNat)
  plain := by
    intro text plain
    have shown : (text.toList.findIdx? fun c => limit ≤ c.toNat) = none := by
      refine List.findIdx?_eq_none_iff.mpr fun c member => ?_
      exact decide_eq_false (Nat.not_le_of_lt (Nat.lt_of_lt_of_le (plain c member) ascii))
    rw [shown, Option.map_none]

/-- A limited encoding shows the texts whose characters are all within its limit. -/
theorem refusal?_limited {name : String} {limit : Nat} {ascii : 128 ≤ limit} {text : String} :
    (limited name limit ascii).refusal? text = none ↔ ∀ c ∈ text.toList, c.toNat < limit := by
  simp [limited]

/-- The encoding of ASCII alone. -/
def ascii : Encoding := limited "ascii" 128 (Nat.le_refl 128)

/-- The encoding of the first 256 characters. -/
def latin1 : Encoding := limited "latin-1" 256 (by decide)

/-- The words name a single character, and of several the offsets. -/
example :
    ascii.refusal? "out/\u03a9" =
        some "'ascii' codec can't encode character '\\u03a9' in position 4: ordinal not in range(128)" ∧
      latin1.refusal? "\u03a9\u03a8\u00e9" =
        some "'latin-1' codec can't encode characters in position 0-1: ordinal not in range(256)" := by
  decide +kernel

end Encoding

end ComLayout
