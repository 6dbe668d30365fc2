import ComLayout.Proofs.Text.Search
import Mathlib.Data.List.TakeWhile

/-!
# Stretches of a text

What stands in a text is said by cutting it: a stretch stands between the part of the text before it and the
part behind it, and the offsets at which it starts and stops are lengths of such parts. A reader that moves
from one place to another has read the stretch between the two, so readers in a row read stretches in a row.
The leftmost success of a reader lies at the least offset at which what it reads stands.
-/

namespace ComLayout.Text

namespace Place

/-- A place lies behind a stretch with which the text after another place begins. -/
def Behind (p : Place) (cs : List Char) (q : Place) : Prop := cs <+: p.rest ∧ q = p.past cs

theorem behind_of_rest {p : Place} {cs rest : List Char} (text : p.rest = cs ++ rest) :
    p.Behind cs (p.past cs) := ⟨⟨rest, text.symm⟩, rfl⟩

/-- Behind a stretch the text goes on. -/
theorem rest_of_behind {p q : Place} {cs : List Char} (behind : p.Behind cs q) : p.rest = cs ++ q.rest := by
  obtain ⟨⟨rest, text⟩, rfl⟩ := behind
  rw [past_rest p cs rest text.symm, text]

/-- Stretches in a row are one. -/
theorem behind_append (p : Place) (as bs : List Char) (r : Place) :
    p.Behind (as ++ bs) r ↔ ∃ q, p.Behind as q ∧ q.Behind bs r := by
  constructor
  · rintro ⟨⟨rest, text⟩, rfl⟩
    have ahead : p.rest = as ++ (bs ++ rest) := by rw [← text, List.append_assoc]
    refine ⟨p.past as, behind_of_rest ahead, ?_, (past_append p as bs).symm⟩
    rw [past_rest p as _ ahead]
    exact List.prefix_append bs rest
  · rintro ⟨q, first, second⟩
    have ahead := rest_of_behind first
    rw [rest_of_behind second, ← List.append_assoc] at ahead
    refine ⟨⟨r.rest, ahead.symm⟩, ?_⟩
    rw [second.2, first.2, past_append]

theorem behind_trans {p q r : Place} {as bs : List Char} (first : p.Behind as q) (second : q.Behind bs r) :
    p.Behind (as ++ bs) r := (behind_append p as bs r).mpr ⟨q, first, second⟩

/-- A word is the stretch that its reader passes over. -/
theorem word?_iff_behind (p : Place) (word : String) (q : Place) :
    p.word? word = some q ↔ p.Behind word.toList q := word?_eq_some p word q

/-- Skipping leads behind the longest run. -/
theorem behind_skip (p : Place) (cond : Char → Bool) : p.Behind (p.rest.takeWhile cond) (p.skip cond) :=
  ⟨List.takeWhile_prefix cond, skip_eq_past p cond⟩

/-- Behind the longest run no other character of its kind stands. -/
theorem skip_stops (p : Place) (cond : Char → Bool) : (p.skip cond).rest.head?.any cond = false := by
  have text : p.rest = p.rest.takeWhile cond ++ p.rest.dropWhile cond :=
    List.takeWhile_append_dropWhile.symm
  have stops := List.head?_dropWhile_not cond p.rest
  rw [skip_eq_past, past_rest p _ _ text]
  cases next : (p.rest.dropWhile cond).head? with
  | none => rfl
  | some c => simpa [next] using stops

/-- A word behind a run is read exactly where some such run and the word stand, if the run cannot hold the
first character of the word. -/
theorem skip_word?_iff (p : Place) (cond : Char → Bool) (word : String) (q : Place) (w : Char)
    (ws : List Char) (spelled : word.toList = w :: ws) (stops : cond w = false) :
    (p.skip cond).word? word = some q ↔
      ∃ run, (∀ c ∈ run, cond c = true) ∧ p.Behind (run ++ word.toList) q := by
  constructor
  · intro read
    rw [word?_iff_behind] at read
    refine ⟨p.rest.takeWhile cond, fun c held => List.mem_takeWhile_imp held, ?_⟩
    exact behind_trans (behind_skip p cond) read
  · rintro ⟨run, meets, behind⟩
    obtain ⟨r, ran, read⟩ := (behind_append p run word.toList q).mp behind
    have ahead : p.rest = run ++ w :: (ws ++ q.rest) := by
      rw [rest_of_behind behind, spelled, List.append_assoc, List.cons_append]
    rw [skip_run p cond run w _ ahead meets stops, ← ran.2, word?_iff_behind]
    exact read

/-- A run is read where it stands and stops. -/
theorem run?_iff_behind (p : Place) (cond : Char → Bool) (cs : List Char) (q : Place) :
    p.run? cond = some (cs, q) ↔
      cs ≠ [] ∧ (∀ c ∈ cs, cond c = true) ∧ p.Behind cs q ∧ q.rest.head?.any cond = false := by
  rw [run?_eq_some]
  constructor
  · rintro ⟨some_, longest, rfl⟩
    have inside : ∀ c ∈ cs, cond c = true := by
      rw [longest]
      exact fun c held => List.mem_takeWhile_imp held
    have skipped : p.skip cond = p.past cs := by rw [longest, skip_eq_past]
    rw [← skipped]
    exact ⟨some_, inside, longest ▸ behind_skip p cond, skip_stops p cond⟩
  · rintro ⟨some_, inside, behind, stops⟩
    refine ⟨some_, ?_, behind.2⟩
    rw [rest_of_behind behind, List.takeWhile_append_of_pos inside]
    cases text : q.rest with
    | nil => simp
    | cons c rest =>
      rw [text] at stops
      rw [List.takeWhile_cons_of_neg (by simpa using stops), List.append_nil]

/-- The places that can be reached lie behind the runs of the characters passed over. -/
theorem mem_reach_iff (p : Place) (cond : Char → Bool) (q : Place) :
    q ∈ p.reach cond ↔ ∃ run, (∀ c ∈ run, cond c = true) ∧ p.Behind run q := by
  constructor
  · intro reached
    obtain ⟨run, begins, meets, behind⟩ := mem_reach p cond q reached
    exact ⟨run, meets, begins, behind⟩
  · rintro ⟨run, meets, ⟨rest, text⟩, rfl⟩
    rw [reach_eq_inits, List.mem_reverse, List.mem_map]
    refine ⟨run, (List.mem_inits _ _).mpr ?_, rfl⟩
    rw [← text, List.takeWhile_append_of_pos meets]
    exact List.prefix_append run _

end Place

open Place

section Cuts

/-- The place of a text behind its part `front`, where `back` is the rest. -/
def placeAt (front back : List Char) : Place := (Place.start (front ++ back)).past front

@[simp] theorem placeAt_rest (front back : List Char) : (placeAt front back).rest = back :=
  past_rest _ front back rfl

@[simp] theorem placeAt_before (front back : List Char) : (placeAt front back).before = front.getLast? :=
  Option.or_none

@[simp] theorem placeAt_offset (front back : List Char) : (placeAt front back).offset = front.length :=
  Nat.zero_add front.length

@[simp] theorem placeAt_line (front back : List Char) :
    (placeAt front back).line = 1 + lineFeeds front := rfl

/-- Passing over a stretch moves it to the part before the place. -/
theorem placeAt_past (front cs back : List Char) :
    (placeAt front (cs ++ back)).past cs = placeAt (front ++ cs) back := by
  rw [placeAt, placeAt, past_append, List.append_assoc]

/-- What lies behind a stretch from a place on, said by the parts of the text. -/
theorem behind_placeAt (front back cs : List Char) (q : Place) :
    (placeAt front back).Behind cs q ↔ ∃ rest, back = cs ++ rest ∧ q = placeAt (front ++ cs) rest := by
  constructor
  · rintro ⟨⟨rest, text⟩, rfl⟩
    rw [placeAt_rest] at text
    subst text
    exact ⟨rest, rfl, placeAt_past front cs rest⟩
  · rintro ⟨rest, rfl, rfl⟩
    refine ⟨?_, (placeAt_past front cs rest).symm⟩
    rw [placeAt_rest]
    exact List.prefix_append cs rest

/-- The places that lie no earlier than an offset are those behind the parts of at least this length. -/
theorem mem_places_drop (text : List Char) (start : Nat) (p : Place) :
    p ∈ (places text).drop start ↔
      ∃ front back, text = front ++ back ∧ start ≤ front.length ∧ p = placeAt front back := by
  by_cases within : start ≤ text.length
  · obtain ⟨skipped, rest, rfl, rfl⟩ : ∃ skipped rest, text = skipped ++ rest ∧ skipped.length = start :=
      ⟨text.take start, text.drop start, (List.take_append_drop start text).symm, by simp [within]⟩
    have ahead := past_rest (Place.start (skipped ++ rest)) skipped rest rfl
    rw [places_drop, onward_eq_inits _ _ ahead, List.mem_map]
    simp only [List.mem_inits]
    constructor
    · rintro ⟨cs, ⟨back, rfl⟩, rfl⟩
      refine ⟨skipped ++ cs, back, by simp, by simp, ?_⟩
      rw [placeAt, past_append, List.append_assoc]
    · rintro ⟨front, back, split, long, rfl⟩
      obtain ⟨cs, rfl⟩ : skipped <+: front :=
        List.prefix_of_prefix_length_le ⟨rest, rfl⟩ ⟨back, split.symm⟩ long
      refine ⟨cs, ⟨back, ?_⟩, ?_⟩
      · exact List.append_cancel_left (by rw [split, List.append_assoc])
      · rw [placeAt, past_append, split]
  · have nothing : (places text).drop start = [] := by
      apply List.drop_eq_nil_of_le
      rw [places, onward_length]
      omega
    rw [nothing]
    constructor
    · intro member
      exact absurd member List.not_mem_nil
    · rintro ⟨front, back, rfl, long, _⟩
      rw [List.length_append] at within
      omega

/-- Places are listed in the order of their offsets. -/
theorem places_ascend (text : List Char) (start : Nat) :
    ((places text).drop start).Pairwise (·.offset < ·.offset) := by
  apply List.Pairwise.drop
  rw [← List.pairwise_map, places, onward_offsets]
  exact List.pairwise_lt_range'

end Cuts

section Leftmost

/-- The least offset from another one on at which something holds. -/
def FirstFrom (holds : Nat → Prop) (start here : Nat) : Prop :=
  start ≤ here ∧ holds here ∧ ∀ i, start ≤ i → i < here → ¬ holds i

variable {α : Type} {read : Place → Option α} {text : List Char} {holds : Nat → Prop}

/-- There is one least offset at most. -/
theorem firstFrom_unique {start i j : Nat} (first : FirstFrom holds start i) (second : FirstFrom holds start j) :
    i = j := by
  rcases Nat.lt_trichotomy i j with before | same | behind
  · exact absurd first.2.1 (second.2.2 i first.1 before)
  · exact same
  · exact absurd second.2.1 (first.2.2 j second.1 behind)

/-- A reader agrees with what holds at the offsets of a text if it succeeds exactly where that holds. -/
def AgreesWith (read : Place → Option α) (text : List Char) (holds : Nat → Prop) : Prop :=
  (∀ front back, text = front ++ back → ((∃ a, read (placeAt front back) = some a) ↔ holds front.length)) ∧
    ∀ i, holds i → i ≤ text.length

/-- What holds at an offset is read at a listed place. -/
theorem exists_success (agrees : AgreesWith read text holds) {start i : Nat} (late : start ≤ i)
    (held : holds i) : ∃ p ∈ (places text).drop start, p.offset = i ∧ ∃ a, read p = some a := by
  have split := (List.take_append_drop i text).symm
  have length : (text.take i).length = i := by simp [agrees.2 i held]
  refine ⟨placeAt (text.take i) (text.drop i), ?_, by rw [placeAt_offset, length], ?_⟩
  · exact (mem_places_drop _ _ _).mpr ⟨_, _, split, by rw [length]; exact late, rfl⟩
  · exact (agrees.1 _ _ split).mpr (by rw [length]; exact held)

/-- Where a reader fails from an offset on, nothing that it reads stands there. -/
theorem leftmost_eq_none (agrees : AgreesWith read text holds) (start : Nat)
    (nothing : leftmost read ((places text).drop start) = none) : ∀ i, start ≤ i → ¬ holds i := by
  intro i late held
  obtain ⟨p, listed, _, a, succeeds⟩ := exists_success agrees late held
  rw [leftmost, List.findSome?_eq_none_iff] at nothing
  have fails := nothing p listed
  simp [succeeds] at fails

/-- The leftmost success lies at the least offset at which what the reader reads stands. -/
theorem leftmost_eq_some (agrees : AgreesWith read text holds) (start : Nat) (p : Place) (a : α)
    (found : leftmost read ((places text).drop start) = some (p, a)) :
    FirstFrom holds start p.offset ∧
      ∃ front back, text = front ++ back ∧ p = placeAt front back ∧ read p = some a := by
  rw [leftmost, List.findSome?_eq_some_iff] at found
  obtain ⟨earlier, q, later, cut, succeeds, fails⟩ := found
  obtain ⟨b, here, both⟩ := Option.map_eq_some_iff.mp succeeds
  obtain ⟨rfl, rfl⟩ := Prod.mk.inj both
  have listed : q ∈ (places text).drop start := by
    rw [cut]
    exact List.mem_append_right _ List.mem_cons_self
  obtain ⟨front, back, split, late, rfl⟩ := (mem_places_drop _ _ _).mp listed
  have ascend := places_ascend text start
  rw [cut, List.pairwise_append, List.pairwise_cons] at ascend
  refine ⟨⟨?_, ?_, ?_⟩, front, back, split, rfl, here⟩
  · simpa using late
  · rw [placeAt_offset]
    exact (agrees.1 front back split).mp ⟨_, here⟩
  · intro i notEarlier before held
    obtain ⟨r, among, rfl, c, success⟩ := exists_success agrees notEarlier held
    rw [cut] at among
    rcases List.mem_append.mp among with inFront | inBack
    · simpa [success] using fails r inFront
    · rcases List.mem_cons.mp inBack with rfl | behind
      · exact Nat.lt_irrefl _ before
      · exact Nat.lt_asymm before (ascend.2.1.1 r behind)

end Leftmost

end ComLayout.Text
