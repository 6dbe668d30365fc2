import ComLayout.Text.LowerCase

/-!
# Comparison without regard to case

Two characters are the same without regard to case if their small letters are equal or belong to one
family. A family holds small letters that share a capital, such as the two small sigmas.
-/

namespace ComLayout.Text

/-- Small letters that share a capital letter. -/
def families : List (List Char) :=
  [['i', 'ı'], ['s', 'ſ'], ['µ', 'μ'], ['\u0345', 'ι', '\u1fbe'], ['\u0390', '\u1fd3'],
   ['\u03b0', '\u1fe3'], ['β', 'ϐ'], ['ε', 'ϵ'], ['θ', 'ϑ'], ['κ', 'ϰ'], ['π', 'ϖ'], ['ρ', 'ϱ'],
   ['ς', 'σ'], ['φ', 'ϕ'], ['ṡ', 'ẛ'], ['в', '\u1c80'], ['д', '\u1c81'], ['о', '\u1c82'],
   ['с', '\u1c83'], ['т', '\u1c84', '\u1c85'], ['ъ', '\u1c86'], ['ѣ', '\u1c87'],
   ['\u1c88', '\ua64b'], ['\ufb05', '\ufb06']]

/-- Equality of two small letters up to their family. -/
def akin (a b : Char) : Bool := a == b || families.any (fun family => family.contains a && family.contains b)

/-- Equality of two characters without regard to case. -/
def sameLetter (a b : Char) : Bool := a == b || akin (lower a) (lower b)

/-- Equality of two texts without regard to case, character by character. -/
def sameWord : List Char → List Char → Bool
  | [], [] => true
  | a :: as, b :: bs => sameLetter a b && sameWord as bs
  | _, _ => false

/-- A character is the same as itself. -/
theorem sameLetter_refl (a : Char) : sameLetter a a = true := by simp [sameLetter]

/-- Kinship does not depend on the order of the two letters. -/
theorem akin_comm (a b : Char) : akin a b = akin b a := by
  have swap : (fun family : List Char => family.contains a && family.contains b) =
      (fun family => family.contains b && family.contains a) := by
    funext family
    exact Bool.and_comm _ _
  simp only [akin, swap, Bool.beq_comm]

/-- Sameness does not depend on the order of the two characters. -/
theorem sameLetter_comm (a b : Char) : sameLetter a b = sameLetter b a := by
  simp only [sameLetter, akin_comm (lower a), Bool.beq_comm]

/-- Every text is the same as itself. -/
theorem sameWord_refl (cs : List Char) : sameWord cs cs = true := by
  induction cs with
  | nil => rfl
  | cons c cs inductionHypothesis => simp [sameWord, sameLetter_refl, inductionHypothesis]

end ComLayout.Text
