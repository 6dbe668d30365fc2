import ComLayout.Proofs.Header.EveryMethod
import Mathlib.Data.List.Sort

/-!
# What a scan depends on

A scan depends on its text only through where its bounds lie, what occurs between them, and the lines on which
occurrences end. Texts that agree in these are scanned alike.
-/

namespace ComLayout.Header

open Text

variable {text other : List Char} {start : Nat} {grammar : Grammar} {name : String}

section Bounds

/-- A scan begins at one offset at most. -/
theorem scanStart_unique {low low₂ : Nat} (first : ScanStart text start grammar name low)
    (second : ScanStart text start grammar name low₂) : low = low₂ := by
  cases grammar with
  | classic =>
    obtain ⟨i, firstHere, rfl⟩ := first
    obtain ⟨j, secondHere, rfl⟩ := second
    rw [firstFrom_unique firstHere secondHere]
  | declarative => exact first.trans second.symm

/-- A scan ends at one offset. -/
theorem scanLimit_unique {low limit limit₂ : Nat} (first : ScanLimit text grammar name low limit)
    (second : ScanLimit text grammar name low limit₂) : limit = limit₂ := by
  rcases first with first | ⟨nowhere, rfl⟩
  · rcases second with second | ⟨nowhere, -⟩
    · exact firstFrom_unique first second
    · exact absurd first.2.1 (nowhere _ first.1)
  · rcases second with second | ⟨-, rfl⟩
    · exact absurd second.2.1 (nowhere _ second.1)
    · rfl

/-- Where no scan begins, no method is reported. -/
theorem scanMethods_of_no_start (nowhere : ∀ low, ¬ ScanStart text start grammar name low) :
    scanMethods text start grammar name = [] := by
  cases grammar with
  | classic =>
    rw [scanMethods]
    cases found : structStart? name text start with
    | none => rfl
    | some low => exact absurd (scanStart_of_structStart? found) (nowhere low)
  | declarative => exact absurd rfl (nowhere start)

/-- Between its bounds a scan reports what occurs there. -/
theorem scanMethods_eq {low limit : Nat} (begins : ScanStart text start grammar name low)
    (ends : ScanLimit text grammar name low limit) :
    scanMethods text start grammar name = (occurrencesBetween text grammar low limit).map (·.reported text) := by
  have bounded : occurrences (methodAt? grammar) (endAt? grammar name) text low =
      (occurrencesBetween text grammar low limit).map (·.reported text) := by
    rw [scanLimit_unique ends (scanLimit_limitOf text grammar name low)]
    exact collect_occurrencesBetween text grammar low _
  cases grammar with
  | classic =>
    rw [scanMethods]
    cases found : structStart? name text start with
    | none => exact absurd begins (not_scanStart_of_structStart? found low)
    | some first =>
      rw [scanStart_unique begins (scanStart_of_structStart? found)] at bounded ⊢
      exact bounded
  | declarative =>
    obtain rfl : low = start := begins
    exact bounded

end Bounds

section Occurrences

/-- One occurrence starts before another. -/
def MethodOccurrence.Before (a b : MethodOccurrence) : Prop := a.start < b.start

instance : Std.Irrefl MethodOccurrence.Before := ⟨fun a => Nat.lt_irrefl a.start⟩

instance : Std.Antisymm MethodOccurrence.Before := ⟨fun _ _ first second => absurd first (Nat.lt_asymm second)⟩

variable {low limit : Nat} {listed listed₂ : List MethodOccurrence}

theorem ListsOccurrences.before (lists : ListsOccurrences text grammar low limit listed) :
    listed.Pairwise MethodOccurrence.Before := lists.ordered.imp fun apart => apart.1

/-- Where the same methods occur, the same are listed. -/
theorem ListsOccurrences.eq (lists : ListsOccurrences text grammar low limit listed)
    (lists₂ : ListsOccurrences other grammar low limit listed₂)
    (same : ∀ o, Occurs text grammar o ↔ Occurs other grammar o) : listed = listed₂ := by
  refine lists.before.eq_of_mem_iff lists₂.before fun o => ?_
  rw [lists.exact, lists₂.exact, same]

end Occurrences

/-- Texts of the same length in which the structs, the terminators and the methods stand at the same offsets, and
on the same lines, are scanned alike. -/
theorem scanMethods_congr (length : text.length = other.length)
    (structs : ∀ i, WholeWordAt text (name ++ "Vtbl").toList i ↔ WholeWordAt other (name ++ "Vtbl").toList i)
    (terminators : ∀ i, Terminates text grammar name i ↔ Terminates other grammar name i)
    (methods : ∀ o, Occurs text grammar o ↔ Occurs other grammar o)
    (lines : ∀ i, lineFeeds (text.take i) = lineFeeds (other.take i)) :
    scanMethods text start grammar name = scanMethods other start grammar name := by
  have structsSame : WholeWordAt text (name ++ "Vtbl").toList = WholeWordAt other (name ++ "Vtbl").toList :=
    funext fun i => propext (structs i)
  have terminatorsSame : Terminates text grammar name = Terminates other grammar name :=
    funext fun i => propext (terminators i)
  have startSame (low : Nat) : ScanStart text start grammar name low ↔ ScanStart other start grammar name low := by
    cases grammar with
    | classic => simp only [ScanStart, structsSame]
    | declarative => exact Iff.rfl
  by_cases begins : ∃ low, ScanStart text start grammar name low
  · obtain ⟨low, begins⟩ := begins
    have ends := scanLimit_limitOf text grammar name low
    generalize limitOf (endAt? grammar name) text ((places text).drop low) = limit at ends
    have endsOther : ScanLimit other grammar name low limit := by
      rwa [ScanLimit, terminatorsSame, length] at ends
    have listed := (occurrencesBetween_lists text grammar low limit).eq
      (occurrencesBetween_lists other grammar low limit) methods
    rw [scanMethods_eq begins ends, scanMethods_eq ((startSame low).mp begins) endsOther, listed]
    simp only [MethodOccurrence.reported, lines]
  · rw [scanMethods_of_no_start fun low begun => begins ⟨low, begun⟩,
      scanMethods_of_no_start fun low begun => begins ⟨low, (startSame low).mpr begun⟩]

end ComLayout.Header
