import ComLayout.Proofs.Header.ScanOutcome

/-!
# What stands behind the terminator

A scan rejects occurrences by where they start. One that starts before the terminator may stop behind it, so two
texts that agree up to the terminator, and beyond, are scanned alike but for that occurrence: there is one at
most, it comes last, and it needs characters behind the part that the texts share.
-/

namespace ComLayout.Header

open Text

variable {shared rest other : List Char} {start low stop : Nat} {grammar : Grammar} {name : String}

/-- The methods that a scan looks for end at an offset, with the first terminator from where it begins on. -/
def EndsAt (text : List Char) (start : Nat) (grammar : Grammar) (name : String) (stop : Nat) : Prop :=
  ∃ low, ScanStart text start grammar name low ∧ FirstFrom (Terminates text grammar name) low stop

/-- What is reported of occurrences that run over the terminator: nothing, or one method, which starts before
the terminator, stops behind it and does not occur in the shared part of the text alone. -/
inductive Overrun (shared rest : List Char) (grammar : Grammar) (stop : Nat) : List (String × Nat) → Prop where
  | none : Overrun shared rest grammar stop []
  | one {o : MethodOccurrence} (occurs : Occurs (shared ++ rest) grammar o) (starts : o.start < stop)
      (stops : stop < o.stop) (needsMore : ¬ Occurs shared grammar o) :
      Overrun shared rest grammar stop [o.reported (shared ++ rest)]

section Shared

/-- A part of a text that is no longer than the shared part lies within it. -/
theorem shared_of_length_le {front back : List Char} (split : shared ++ rest = front ++ back)
    (short : front.length ≤ shared.length) : ∃ ahead, shared = front ++ ahead ∧ back = ahead ++ rest := by
  obtain ⟨ahead, rfl⟩ : front <+: shared :=
    List.prefix_of_prefix_length_le ⟨back, split.symm⟩ ⟨rest, rfl⟩ short
  rw [List.append_assoc, List.append_cancel_left_eq] at split
  exact ⟨ahead, rfl, split.symm⟩

/-- A whole word that stands before the last shared character stands whatever follows the shared part. Of what
follows the word, only the next character matters for a boundary. -/
theorem wholeWordAt_of_shared {word : List Char} {i : Nat} (within : i + word.length < shared.length)
    (stands : WholeWordAt (shared ++ rest) word i) : WholeWordAt (shared ++ other) word i := by
  obtain ⟨front, back, split, rfl, begins, ends⟩ := stands
  rw [← List.append_assoc] at split
  obtain ⟨ahead, rfl, rfl⟩ := shared_of_length_le split (by simpa using within.le)
  obtain ⟨c, ahead, rfl⟩ : ∃ c cs, ahead = c :: cs := by
    apply List.exists_cons_of_ne_nil
    rintro rfl
    simp at within
  refine ⟨front, c :: ahead ++ other, by simp, rfl, ?_, ends⟩
  cases word with
  | nil => exact begins
  | cons d word => exact begins

/-- What occurs in the shared part occurs in the whole text. -/
theorem occurs_append {o : MethodOccurrence} (occurs : Occurs shared grammar o) (rest : List Char) :
    Occurs (shared ++ rest) grammar o := by
  obtain ⟨front, cs, back, rfl, starts, stops, method⟩ := occurs
  refine ⟨front, cs, back ++ rest, by simp, starts, stops, ?_⟩
  cases grammar with
  | classic => exact method
  | declarative =>
    obtain ⟨bounded, ended, method⟩ := method
    exact ⟨bounded, List.mem_append_left rest ended, method⟩

theorem stop_le_of_occurs {o : MethodOccurrence} (occurs : Occurs shared grammar o) :
    o.stop ≤ shared.length := by
  obtain ⟨front, cs, back, rfl, _, stops, _⟩ := occurs
  rw [← stops]
  simp

/-- The line on which a shared occurrence ends does not depend on what follows the shared part. -/
theorem reported_append {o : MethodOccurrence} (occurs : Occurs shared grammar o) (rest : List Char) :
    o.reported (shared ++ rest) = o.reported shared := by
  rw [MethodOccurrence.reported, MethodOccurrence.reported,
    List.take_append_of_le_length (stop_le_of_occurs occurs)]

/-- A declarative method ends with its closing parenthesis. -/
theorem getLast?_declarativeMethod {methodName cs : List Char} (method : DeclarativeMethod methodName cs) :
    cs.getLast? = some ')' := by
  obtain @⟨announced, _, _, named⟩ := method
  obtain ⟨body, rfl, _⟩ := closedName_split named
  rw [← List.append_assoc, ← List.append_assoc]
  exact List.getLast?_concat

/-- A closing line stands behind a line feed if anything stands before it. -/
theorem lineFeed_before_closing {text closed front ahead back : List Char}
    (closes : ClosesAt text closed (front ++ ahead).length) (split : text = front ++ ahead ++ back)
    (some_ : front ≠ []) (other : front.getLast? ≠ some '\n') : '\n' ∈ ahead := by
  obtain ⟨lead, line, behind, rfl, length, begins, _, _⟩ := closes
  obtain ⟨rfl, -⟩ := List.append_inj split length
  rcases begins with nothing | lineFeed
  · exact absurd (List.append_eq_nil_iff.mp nothing).1 some_
  · rw [List.getLast?_append, Option.or_eq_some_iff] at lineFeed
    rcases lineFeed with last | ⟨-, last⟩
    · exact List.mem_of_getLast? last
    · exact absurd last other

/-- An occurrence that stops no later than a terminator that begins in the shared part occurs in that part. The line
feed behind an occurrence of the declarative grammar is the one before the closing line. -/
theorem occurs_of_stop_le {o : MethodOccurrence} (inside : stop ≤ shared.length)
    (ends : Terminates (shared ++ rest) grammar name stop) (occurs : Occurs (shared ++ rest) grammar o)
    (early : o.stop ≤ stop) : Occurs shared grammar o := by
  obtain ⟨front, cs, back, split, starts, stops, method⟩ := occurs
  rw [← List.append_assoc] at split
  obtain ⟨ahead, rfl, rfl⟩ := shared_of_length_le split (by omega)
  refine ⟨front, cs, ahead, by simp, starts, stops, ?_⟩
  cases grammar with
  | classic => exact method
  | declarative =>
    obtain ⟨bounded, -, method⟩ := method
    obtain ⟨between, behind, rfl, length⟩ : ∃ between behind, ahead = between ++ behind ∧
        (front ++ cs ++ between).length = stop := by
      refine ⟨ahead.take (stop - o.stop), ahead.drop (stop - o.stop), (List.take_append_drop _ _).symm, ?_⟩
      simp only [List.length_append, List.length_take] at inside stops ⊢
      omega
    have last : (front ++ cs).getLast? = some ')' := by
      rw [List.getLast?_append, getLast?_declarativeMethod method, Option.some_or]
    have lineFeed : '\n' ∈ between := by
      have closes : ClosesAt _ _ (front ++ cs ++ between).length := length ▸ ends
      have cut : front ++ cs ++ (between ++ behind) ++ rest = front ++ cs ++ between ++ (behind ++ rest) := by simp
      refine lineFeed_before_closing closes cut ?_ (by rw [last]; decide)
      intro nothing
      simp [nothing] at last
    exact ⟨bounded, List.mem_append_left behind lineFeed, method⟩

/-- Texts whose terminator begins in the shared part are scanned from the same offset on. -/
theorem low_unique_of_shared {low₂ : Nat} (inside : stop < shared.length)
    (begins : ScanStart (shared ++ rest) start grammar name low)
    (beginsOther : ScanStart (shared ++ other) start grammar name low₂)
    (before : low ≤ stop) (beforeOther : low₂ ≤ stop) : low = low₂ := by
  cases grammar with
  | declarative => exact begins.trans beginsOther.symm
  | classic =>
    obtain ⟨i, first, rfl⟩ := begins
    obtain ⟨j, firstOther, rfl⟩ := beginsOther
    congr 1
    by_contra different
    rcases Nat.lt_or_gt_of_ne different with less | greater
    · exact firstOther.2.2 i first.1 less (wholeWordAt_of_shared (by omega) first.2.1)
    · exact first.2.2 j firstOther.1 greater (wholeWordAt_of_shared (by omega) firstOther.2.1)

end Shared

/-- Between its bounds a scan reports what occurs in the shared part, and what runs over the terminator. Behind an
occurrence that runs over the terminator no other one starts before it. -/
theorem scanMethods_of_endsAt (inside : stop < shared.length)
    (begins : ScanStart (shared ++ rest) start grammar name low)
    (ends : FirstFrom (Terminates (shared ++ rest) grammar name) low stop) :
    ∃ more, Overrun shared rest grammar stop more ∧ scanMethods (shared ++ rest) start grammar name =
      (occurrencesBetween shared grammar low stop).map (·.reported shared) ++ more := by
  have within := occurrencesBetween_lists shared grammar low stop
  have lists := occurrencesBetween_lists (shared ++ rest) grammar low stop
  rw [scanMethods_eq begins (.inl ends)]
  generalize occurrencesBetween shared grammar low stop = held at within
  generalize occurrencesBetween (shared ++ rest) grammar low stop = listed at lists
  have reported : held.map (·.reported (shared ++ rest)) = held.map (·.reported shared) :=
    List.map_congr_left fun o among => reported_append ((within.exact o).mp among).1 rest
  have kept : ∀ o ∈ held, o ∈ listed := by
    intro o among
    obtain ⟨occurs, bounds⟩ := (within.exact o).mp among
    exact (lists.exact o).mpr ⟨occurs_append occurs rest, bounds⟩
  by_cases all : ∀ o ∈ listed, o ∈ held
  case pos =>
    obtain rfl : listed = held := lists.before.eq_of_mem_iff within.before fun o => ⟨all o, kept o⟩
    exact ⟨[], .none, by rw [reported, List.append_nil]⟩
  case neg =>
    push Not at all
    obtain ⟨o, among, absent⟩ := all
    obtain ⟨occurs, late, starts⟩ := (lists.exact o).mp among
    have needsMore : ¬ Occurs shared grammar o := fun has => absent ((within.exact o).mpr ⟨has, late, starts⟩)
    have stops : stop < o.stop := by
      by_contra early
      exact needsMore (occurs_of_stop_le inside.le ends.2.1 occurs (by omega))
    obtain ⟨before, behind, rfl⟩ := List.append_of_mem among
    obtain ⟨-, orderedBehind, apart⟩ := List.pairwise_append.mp lists.ordered
    obtain rfl : behind = [] := by
      rw [List.eq_nil_iff_forall_not_mem]
      intro a listedBehind
      have further := (List.rel_of_pairwise_cons orderedBehind listedBehind).2
      have early := ((lists.exact a).mp (by simp [listedBehind])).2.2
      omega
    obtain rfl : before = held := by
      have ascend := (List.pairwise_append.mp lists.before).1
      refine ascend.eq_of_mem_iff within.before fun a => ⟨fun first => ?_, fun first => ?_⟩
      · obtain ⟨occursToo, bounds⟩ := (lists.exact a).mp (List.mem_append_left _ first)
        have early := (apart a first o List.mem_cons_self).2
        exact (within.exact a).mpr ⟨occurs_of_stop_le inside.le ends.2.1 occursToo (by omega), bounds⟩
      · rcases List.mem_append.mp (kept a first) with inFront | alone
        · exact inFront
        · rw [List.mem_singleton.mp alone] at first
          exact absurd first absent
    exact ⟨_, .one occurs starts stops needsMore, by rw [List.map_append, reported, List.map_singleton]⟩

/-- What a search finds is where the methods end. -/
theorem endsAt_of_leftmost {text : List Char} (begins : ScanStart text start grammar name low)
    (found : (leftmost (endAt? grammar name) ((places text).drop low)).map (·.1.offset) = some stop) :
    EndsAt text start grammar name stop := by
  obtain ⟨⟨p, q⟩, first, rfl⟩ := Option.map_eq_some_iff.mp found
  exact ⟨low, begins, (leftmost_eq_some (endAt?_agrees grammar name text) low p q first).1⟩

/-- Two texts that agree up to the terminator and have it at the same offset are scanned alike, but for what runs over
the terminator.

Behind the terminator no occurrence starts that is reported. One that starts before it may end behind it, and is
reported where its end is found, which depends on what follows. There is at most one such, and it comes last.

An occurrence that stops no later than the terminator depends on the shared text alone, and on the next character
where a word has to end. As occurrences do not overlap, one that runs over the terminator is the last, and all before
it are the same in both texts. -/
theorem scanMethods_up_to_terminator (inside : stop < shared.length)
    (ends : EndsAt (shared ++ rest) start grammar name stop)
    (endsOther : EndsAt (shared ++ other) start grammar name stop) :
    ∃ methods more moreOther, Overrun shared rest grammar stop more ∧
      Overrun shared other grammar stop moreOther ∧
      scanMethods (shared ++ rest) start grammar name = methods ++ more ∧
      scanMethods (shared ++ other) start grammar name = methods ++ moreOther := by
  obtain ⟨low, begins, first⟩ := ends
  obtain ⟨low₂, beginsOther, firstOther⟩ := endsOther
  obtain rfl := low_unique_of_shared inside begins beginsOther first.1 firstOther.1
  obtain ⟨more, overruns, scanned⟩ := scanMethods_of_endsAt inside begins first
  obtain ⟨moreOther, overrunsOther, scannedOther⟩ := scanMethods_of_endsAt inside beginsOther firstOther
  exact ⟨_, more, moreOther, overruns, overrunsOther, scanned, scannedOther⟩

/-- A body whose line before the terminator leaves a return type open, which goes on over the terminator. -/
def openReturnType : List Char := "STDMETHOD(Draw)\nSTDMETHOD_(\n\x7d; // interface IPen ,\n".toList

/-- The method before is reported either way, whatever closes the return type. -/
theorem openReturnType_up_to_terminator :
    28 < openReturnType.length ∧ EndsAt (openReturnType ++ []) 0 .declarative "IPen" 28 ∧
      EndsAt (openReturnType ++ "Open)\n".toList) 0 .declarative "IPen" 28 ∧
      ∃ methods more moreOther, Overrun openReturnType [] .declarative 28 more ∧
        Overrun openReturnType "Open)\n".toList .declarative 28 moreOther ∧
        scanMethods (openReturnType ++ []) 0 .declarative "IPen" = methods ++ more ∧
        scanMethods (openReturnType ++ "Open)\n".toList) 0 .declarative "IPen" = methods ++ moreOther := by
  have inside : 28 < openReturnType.length := by decide
  have ends : EndsAt (openReturnType ++ []) 0 .declarative "IPen" 28 :=
    endsAt_of_leftmost rfl (by decide +kernel)
  have endsOther : EndsAt (openReturnType ++ "Open)\n".toList) 0 .declarative "IPen" 28 :=
    endsAt_of_leftmost rfl (by decide +kernel)
  exact ⟨inside, ends, endsOther, scanMethods_up_to_terminator inside ends endsOther⟩

/-- The line of the terminator is shared in full, and yet what follows it decides what is reported. -/
theorem overrun_of_openReturnType :
    EndsAt (openReturnType ++ []) 0 .declarative "IPen" 28 ∧
      EndsAt (openReturnType ++ "Open)\n".toList) 0 .declarative "IPen" 28 ∧
      '\n' ∈ openReturnType.drop 28 ∧
      scanMethods (openReturnType ++ []) 0 .declarative "IPen" = [("Draw", 1)] ∧
      scanMethods (openReturnType ++ "Open)\n".toList) 0 .declarative "IPen" = [("Draw", 1), ("Open", 4)] :=
  ⟨endsAt_of_leftmost rfl (by decide +kernel), endsAt_of_leftmost rfl (by decide +kernel), by decide +kernel,
    by decide +kernel, by decide +kernel⟩

end ComLayout.Header
