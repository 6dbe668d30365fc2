import ComLayout.Proofs.Text.Passage
import ComLayout.Text.Utf8

/-!
# ASCII texts

In an ASCII text lower case is taken letter by letter. Two ASCII names with the same lower case are then
found at the same places: comparison without regard to case sees no more of a name than its small letters.
-/

namespace ComLayout.Text

/-- All characters of a text are ASCII. -/
def IsAscii (cs : List Char) : Prop := ∀ c ∈ cs, c.toNat < 128

instance (cs : List Char) : Decidable (IsAscii cs) := inferInstanceAs (Decidable (∀ c ∈ cs, c.toNat < 128))

/-- What holds for the first 128 code points holds for every ASCII character. -/
theorem forall_ascii {holds : Char → Prop} (each : ∀ n, n < 128 → holds (Char.ofNat n)) (c : Char)
    (ascii : c.toNat < 128) : holds c := by
  have here : holds (Char.ofNat c.toNat) := each c.toNat ascii
  rwa [Char.ofNat_toNat] at here

/-- Lower case of an ASCII text is taken letter by letter. -/
theorem lowerText_ascii (cs : List Char) (ascii : IsAscii cs) : lowerText cs = cs.map lower := by
  have lowerAfter_ascii (before cs : List Char) (ascii : IsAscii cs) :
      lowerAfter before cs = cs.map lower := by
    induction cs generalizing before with
    | nil => rfl
    | cons c cs inductionHypothesis =>
      have first : c.toNat < 128 := ascii c List.mem_cons_self
      have others : IsAscii cs := by
        intro d member
        exact ascii d (List.mem_cons_of_mem c member)
      rw [lowerAfter, lowerInContext_ascii before cs c first, inductionHypothesis (c :: before) others,
        List.map_cons, lower_ascii c first, List.singleton_append]
  exact lowerAfter_ascii [] cs ascii

/-- Two ASCII texts have the same lower case exactly if they agree letter by letter in lower case. -/
theorem lowerString_eq_iff (a b : String) (asciiA : IsAscii a.toList) (asciiB : IsAscii b.toList) :
    lowerString a = lowerString b ↔ a.toList.map lower = b.toList.map lower := by
  rw [lowerString, lowerString, lowerText_ascii _ asciiA, lowerText_ascii _ asciiB]
  exact String.ofList_inj

/-- Characters are the same up to case if their small letters are akin. -/
theorem sameLetter_eq_akin (a b : Char) : sameLetter a b = akin (lower a) (lower b) := by
  by_cases same : a = b
  · simp [sameLetter, akin, same]
  · simp [sameLetter, same]

/-- Small letters of ASCII characters are ASCII. -/
theorem lower_toNat_lt (c : Char) (ascii : c.toNat < 128) : (lower c).toNat < 128 := by
  revert c
  exact forall_ascii (by decide +kernel)

/-- Of each family of small letters one at most is ASCII, so ASCII letters are akin only to themselves. -/
theorem akin_ascii (a b : Char) (asciiA : a.toNat < 128) (asciiB : b.toNat < 128) :
    akin a b = true ↔ a = b := by
  have alone : ∀ family ∈ families, ∀ x ∈ family, ∀ y ∈ family, x.toNat < 128 → y.toNat < 128 → x = y := by
    decide
  constructor
  · intro kin
    rcases Bool.or_eq_true _ _ ▸ kin with same | inFamily
    · exact beq_iff_eq.mp same
    · obtain ⟨family, listed, both⟩ := List.any_eq_true.mp inFamily
      obtain ⟨heldA, heldB⟩ := Bool.and_eq_true _ _ ▸ both
      exact alone family listed a (List.contains_iff_mem.mp heldA) b (List.contains_iff_mem.mp heldB)
        asciiA asciiB
  · rintro rfl
    simp [akin]

/-- ASCII texts are the same up to case exactly if they agree letter by letter in lower case. -/
theorem sameWord_ascii (as bs : List Char) (asciiA : IsAscii as) (asciiB : IsAscii bs) :
    sameWord as bs = true ↔ as.map lower = bs.map lower := by
  induction as generalizing bs with
  | nil => cases bs <;> simp [sameWord]
  | cons a as inductionHypothesis =>
    cases bs with
    | nil => simp [sameWord]
    | cons b bs =>
      have letter : sameLetter a b = true ↔ lower a = lower b := by
        rw [sameLetter_eq_akin]
        exact akin_ascii _ _ (lower_toNat_lt a (asciiA a List.mem_cons_self))
          (lower_toNat_lt b (asciiB b List.mem_cons_self))
      have others := inductionHypothesis bs (fun c member => asciiA c (List.mem_cons_of_mem a member))
        (fun c member => asciiB c (List.mem_cons_of_mem b member))
      simp only [sameWord, Bool.and_eq_true, letter, others, List.map_cons, List.cons.injEq]

/-- No small letter stands in two families, so letters that are akin to one letter are akin. -/
theorem akin_trans {a b c : Char} (first : akin a b = true) (second : akin b c = true) : akin a c = true := by
  have apart : ∀ family ∈ families, ∀ other ∈ families, ∀ x ∈ family, x ∈ other → family = other := by decide
  rcases Bool.or_eq_true _ _ ▸ first with same | inFamily
  · rwa [beq_iff_eq.mp same]
  rcases Bool.or_eq_true _ _ ▸ second with same | inOther
  · rwa [← beq_iff_eq.mp same]
  obtain ⟨family, listed, both⟩ := List.any_eq_true.mp inFamily
  obtain ⟨other, listedOther, bothOther⟩ := List.any_eq_true.mp inOther
  obtain ⟨heldA, heldB⟩ := Bool.and_eq_true _ _ ▸ both
  obtain ⟨heldB₂, heldC⟩ := Bool.and_eq_true _ _ ▸ bothOther
  obtain rfl :=
    apart family listed other listedOther b (List.contains_iff_mem.mp heldB) (List.contains_iff_mem.mp heldB₂)
  have inOne : families.any (fun family => family.contains a && family.contains c) = true :=
    List.any_eq_true.mpr ⟨family, listed, Bool.and_eq_true _ _ ▸ ⟨heldA, heldC⟩⟩
  rw [akin, inOne, Bool.or_true]

theorem sameLetter_trans {a b c : Char} (first : sameLetter a b = true) (second : sameLetter b c = true) :
    sameLetter a c = true := by
  rw [sameLetter_eq_akin] at first second ⊢
  exact akin_trans first second

theorem sameWord_trans {as bs cs : List Char} (first : sameWord as bs = true) (second : sameWord bs cs = true) :
    sameWord as cs = true := by
  rw [sameWord_iff] at first second ⊢
  induction first generalizing cs with
  | nil => exact second
  | cons letter _ inductionHypothesis =>
    obtain _ | ⟨letter₂, others₂⟩ := second
    exact .cons (sameLetter_trans letter letter₂) (inductionHypothesis others₂)

theorem sameWord_symm {as bs : List Char} (same : sameWord as bs = true) : sameWord bs as = true := by
  rw [sameWord_iff] at same ⊢
  exact same.flip.imp fun a b alike => by rwa [sameLetter_comm]

/-- Names with the same small letters are the same up to case. -/
theorem sameWord_of_lower {as bs : List Char} (same : as.map lower = bs.map lower) : sameWord as bs = true := by
  rw [sameWord_iff]
  rw [← List.forall₂_eq_eq_eq, List.forall₂_map_left_iff, List.forall₂_map_right_iff] at same
  exact same.imp fun a b alike => by rw [sameLetter_eq_akin, alike, akin, beq_self_eq_true, Bool.true_or]

/-- Names that are the same up to case are read alike at every place. -/
theorem name?_of_sameWord {as bs : List Char} (same : sameWord as bs = true) (p : Place) :
    p.name? as = p.name? bs := by
  rw [sameWord_iff] at same
  have spelled (rest : List Char) (p : Place) :
      Place.spelledFrom p sameLetter as rest = Place.spelledFrom p sameLetter bs rest := by
    induction same generalizing rest p with
    | nil => rfl
    | @cons a b _ _ alike _ inductionHypothesis =>
      cases rest with
      | nil => rfl
      | cons c rest =>
        have letter : sameLetter a c = sameLetter b c :=
          Bool.eq_iff_iff.mpr ⟨sameLetter_trans (sameLetter_comm a b ▸ alike), sameLetter_trans alike⟩
        rw [Place.spelledFrom, Place.spelledFrom, letter, inductionHypothesis]
  rw [Place.name?, Place.name?, spelled, same.length_eq]

/-- Unifying line ends brings in nothing but line feeds. -/
theorem mem_unifyLineEnds (cs : List Char) (c : Char) (held : c ∈ unifyLineEnds cs) :
    c = '\n' ∨ c ∈ cs := by
  fun_induction unifyLineEnds cs with
  | case1 => simp at held
  | case2 rest inductionHypothesis =>
    rcases List.mem_cons.mp held with feed | further
    · exact .inl feed
    · exact (inductionHypothesis further).imp id fun inside => by simp [inside]
  | case3 d rest _ inductionHypothesis =>
    rcases List.mem_cons.mp held with first | further
    · by_cases isReturn : d = '\r'
      · simp [isReturn] at first
        exact .inl first
      · simp [isReturn] at first
        exact .inr (by simp [first])
    · exact (inductionHypothesis further).imp id fun inside => by simp [inside]

/-- ASCII bytes decode to an ASCII text. -/
theorem isAscii_decodeLossy (bytes : List UInt8) (ascii : ∀ b ∈ bytes, b < 0x80) :
    IsAscii (decodeLossy bytes) := by
  intro c held
  rw [decodeLossy_ascii bytes ascii] at held
  obtain ⟨b, member, rfl⟩ := List.mem_map.mp held
  have small : b.toNat < 128 := ascii b member
  have valid : b.toNat.isValidChar := .inl (by omega)
  rw [Char.ofNat, dif_pos valid]
  exact small

/-- Unifying the line ends of an ASCII text yields an ASCII text. -/
theorem isAscii_unifyLineEnds (cs : List Char) (ascii : IsAscii cs) : IsAscii (unifyLineEnds cs) := by
  intro c held
  rcases mem_unifyLineEnds cs c held with rfl | inside
  · decide
  · exact ascii c inside

/-- An ASCII character is encoded as one byte. -/
theorem utf8EncodeChar_ascii (c : Char) (ascii : c.toNat < 128) :
    String.utf8EncodeChar c = [UInt8.ofNat c.toNat] :=
  if_pos (Nat.le_of_lt_succ ascii)

/-- The byte of an ASCII character is that of the character. -/
theorem ofNat_toNat_ascii (c : Char) (ascii : c.toNat < 128) :
    UInt8.ofNat c.toNat < 0x80 ∧ Char.ofNat (UInt8.ofNat c.toNat).toNat = c := by
  have fits : c.toNat < UInt8.size := Nat.lt_trans ascii (by decide)
  have small : (UInt8.ofNat c.toNat).toNat = c.toNat := UInt8.toNat_ofNat_of_lt' fits
  constructor
  · rw [UInt8.lt_iff_toNat_lt, small]
    exact ascii
  · rw [small, Char.ofNat_toNat]

/-- An ASCII text is encoded byte by byte and decoded to itself. -/
theorem decodeLossy_toUTF8 (cs : List Char) (ascii : IsAscii cs) :
    decodeLossy (String.ofList cs).toUTF8.data.toList = cs := by
  have encoded : (String.ofList cs).toUTF8.data.toList = cs.map fun c => UInt8.ofNat c.toNat := by
    change (String.ofList cs).toByteArray.data.toList = _
    rw [String.toByteArray_ofList, List.utf8Encode, List.toList_data_toByteArray, List.map_eq_flatMap]
    exact List.flatMap_congr fun c member => utf8EncodeChar_ascii c (ascii c member)
  have small : ∀ b ∈ cs.map (fun c => UInt8.ofNat c.toNat), b < 0x80 := by
    intro b member
    obtain ⟨c, held, rfl⟩ := List.mem_map.mp member
    exact (ofNat_toNat_ascii c (ascii c held)).1
  rw [encoded, decodeLossy_ascii _ small, List.map_map]
  refine (List.map_congr_left fun c held => ?_).trans (List.map_id cs)
  exact (ofNat_toNat_ascii c (ascii c held)).2

end ComLayout.Text
