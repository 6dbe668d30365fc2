import ComLayout.Proofs.Discovery.Filtering
import Mathlib.Data.List.Sort
import Mathlib.Data.String.Basic

/-!
# The canonical listing

What is discovered does not depend on how an enumeration went: neither on its order nor on how often it
yielded a path. Of the paths that lead to one file the least stands for the file, and the files that pass the
filter by that path are listed in the order of the paths.
-/

namespace ComLayout

namespace SizeLimit

/-- A size lies within a limit: the limit is no positive number, or the size is at most the limit. -/
def Holds : SizeLimit → Nat → Prop
  | .int n, size => n ≤ 0 ∨ (size : Int) ≤ n
  | .real x, size => x.compareInt 0 = some .lt ∨ x.compareInt 0 = some .eq ∨
      (x.compareInt 0 = some .gt ∧ (x.compareInt size = some .gt ∨ x.compareInt size = some .eq))
  | .malformed, _ => False

/-- A limit admits exactly the sizes within it. -/
theorem admits_eq_true {limit : SizeLimit} {size : Nat} : limit.admits size = .ok true ↔ limit.Holds size := by
  cases limit with
  | int n => simp [admits, Holds]
  | real x =>
    cases sign : x.compareInt 0 with
    | none => simp [admits, Holds, sign]
    | some order => cases order <;> simp [admits, Holds, sign]
  | malformed => simp [admits, Holds]

end SizeLimit

namespace Discovery

open Glob

/-- The order of candidates is that of the parts of their paths. -/
def Precedes (c d : Candidate) : Prop := c.path.parts < d.path.parts

instance : Std.Irrefl Precedes := ⟨fun c => lt_irrefl c.path.parts⟩

instance : Std.Antisymm Precedes := ⟨fun _ _ first second => absurd second (lt_asymm first)⟩

/-- Candidates none of which precedes one before it. -/
def InOrder (cs : List Candidate) : Prop := cs.Pairwise fun c d => c.path.parts ≤ d.path.parts

/-- Candidates are sorted in the order of their paths. -/
theorem inOrder_sort (cs : List Candidate) : InOrder (sort cs) := by
  have order (c d : Candidate) : (!d.path.before c.path) = true ↔ c.path.parts ≤ d.path.parts := by
    simp [Path.before]
  have sorted := @List.pairwise_mergeSort Candidate (fun c d => !d.path.before c.path) ?trans ?total cs
  case trans =>
    intro c d e first second
    rw [order] at first second ⊢
    exact le_trans first second
  case total =>
    intro c d
    rw [Bool.or_eq_true, order, order]
    exact le_total c.path.parts d.path.parts
  exact sorted.imp (order _ _).mp

variable {tree : Tree} {found : List Candidate}

/-- A candidate that leads to its file by the least of the paths that lead there. -/
structure LeastSpelling (found : List Candidate) (c : Candidate) : Prop where
  member : c ∈ found
  least : ∀ d ∈ found, d.place = c.place → c.path.parts ≤ d.path.parts

/-- Candidates whose paths have the same parts are the same. -/
theorem eq_of_parts {c d : Candidate} (first : c.Retrievable tree) (second : d.Retrievable tree)
    (same : c.path.parts = d.path.parts) : c = d := by
  obtain ⟨⟨firstAnchor, firstNames⟩, firstPlace⟩ := c
  obtain ⟨⟨secondAnchor, secondNames⟩, secondPlace⟩ := d
  obtain rfl : firstAnchor = .none := (Tree.locate_eq_ok (Tree.find?_eq_some.mp first.found).1).1
  obtain rfl : secondAnchor = .none := (Tree.locate_eq_ok (Tree.find?_eq_some.mp second.found).1).1
  obtain rfl : firstNames = secondNames := same
  have places := first.found.symm.trans second.found
  rw [Except.ok.injEq, Option.some.injEq] at places
  rw [show firstPlace = secondPlace from places]

/-- No file stands twice among the first candidates for each file, nor does one that was seen before. -/
theorem places_firstOfEach (seen : List Location) (cs : List Candidate) :
    (firstOfEach seen cs).Pairwise (fun c d => c.place ≠ d.place) ∧
      ∀ c ∈ firstOfEach seen cs, c.place ∉ seen := by
  induction cs generalizing seen with
  | nil => simp [firstOfEach]
  | cons first rest inductionHypothesis =>
    unfold firstOfEach
    split
    next => exact inductionHypothesis seen
    next unseen =>
      obtain ⟨apart, fresh⟩ := inductionHypothesis (first.place :: seen)
      refine ⟨List.pairwise_cons.mpr ⟨fun c member same => ?_, apart⟩, fun c member => ?_⟩
      · exact fresh c member (same ▸ List.mem_cons_self)
      · rcases List.mem_cons.mp member with rfl | later
        · simpa using unseen
        · exact fun known => fresh c later (List.mem_cons_of_mem first.place known)

/-- Each file has its first candidate, unless it was seen before. -/
theorem exists_firstOfEach {seen : List Location} {cs : List Candidate} {c : Candidate} (member : c ∈ cs)
    (unseen : c.place ∉ seen) : ∃ first ∈ firstOfEach seen cs, first.place = c.place := by
  induction cs generalizing seen with
  | nil => exact absurd member List.not_mem_nil
  | cons first rest inductionHypothesis =>
    unfold firstOfEach
    split
    next known =>
      rcases List.mem_cons.mp member with rfl | later
      · exact absurd (by simpa using known) unseen
      · exact inductionHypothesis later unseen
    next =>
      by_cases here : first.place = c.place
      · exact ⟨first, List.mem_cons_self, here⟩
      · have later : c ∈ rest := (List.mem_cons.mp member).resolve_left fun same => here (same ▸ rfl)
        have unseenLater : c.place ∉ first.place :: seen := by
          rintro known
          rcases List.mem_cons.mp known with now | before
          · exact here now.symm
          · exact unseen before
        obtain ⟨other, among, same⟩ := inductionHypothesis later unseenLater
        exact ⟨other, List.mem_cons_of_mem first among, same⟩

/-- Where candidates are in order, the first for each file is the least spelling of the file. A later candidate for
the file of an earlier one is no lesser spelling. -/
theorem mem_firstOfEach {seen : List Location} {cs : List Candidate} (ordered : InOrder cs)
    (retrievable : ∀ c ∈ cs, c.Retrievable tree) (c : Candidate) :
    c ∈ firstOfEach seen cs ↔ LeastSpelling cs c ∧ c.place ∉ seen := by
  induction cs generalizing seen with
  | nil => exact ⟨fun member => absurd member List.not_mem_nil, fun ⟨least, _⟩ => least.member⟩
  | cons first rest inductionHypothesis =>
    obtain ⟨ahead, orderedRest⟩ := List.pairwise_cons.mp ordered
    have later (others : List Location) :
        c ∈ firstOfEach others rest ↔ LeastSpelling rest c ∧ c.place ∉ others :=
      inductionHypothesis orderedRest fun d member => retrievable d (List.mem_cons_of_mem first member)
    unfold firstOfEach
    split
    next known =>
      rw [later]
      constructor
      · rintro ⟨⟨member, least⟩, unseen⟩
        refine ⟨⟨List.mem_cons_of_mem first member, fun d among same => ?_⟩, unseen⟩
        rcases List.mem_cons.mp among with rfl | behind
        · exact absurd (by simpa [same] using known) unseen
        · exact least d behind same
      · rintro ⟨⟨member, least⟩, unseen⟩
        refine ⟨⟨(List.mem_cons.mp member).resolve_left ?_, fun d among => ?_⟩, unseen⟩
        · rintro rfl
          exact unseen (by simpa using known)
        · exact least d (List.mem_cons_of_mem first among)
    next fresh =>
      rw [List.mem_cons, later]
      constructor
      · rintro (rfl | ⟨⟨member, least⟩, unseen⟩)
        · refine ⟨⟨List.mem_cons_self, fun d among same => ?_⟩, by simpa using fresh⟩
          rcases List.mem_cons.mp among with rfl | behind
          · exact le_rfl
          · exact ahead d behind
        · have unlike : c.place ≠ first.place := fun same => unseen (same ▸ List.mem_cons_self)
          refine ⟨⟨List.mem_cons_of_mem first member, fun d among same => ?_⟩, fun known => ?_⟩
          · rcases List.mem_cons.mp among with rfl | behind
            · exact absurd same.symm unlike
            · exact least d behind same
          · exact unseen (List.mem_cons_of_mem first.place known)
      · rintro ⟨⟨member, least⟩, unseen⟩
        rcases List.mem_cons.mp member with rfl | behind
        · exact .inl rfl
        · by_cases same : c.place = first.place
          · left
            have parts := le_antisymm (least first List.mem_cons_self same.symm) (ahead c behind)
            exact eq_of_parts (retrievable c member) (retrievable first List.mem_cons_self) parts
          · refine .inr ⟨⟨behind, fun d among => least d (List.mem_cons_of_mem first among)⟩, fun known => ?_⟩
            rcases List.mem_cons.mp known with now | before
            · exact same now
            · exact unseen before

section Enumerated

variable (retrievable : ∀ c ∈ found, c.Retrievable tree)
include retrievable

/-- What is sorted is retrievable. -/
theorem retrievable_sort : ∀ c ∈ sort found, c.Retrievable tree :=
  fun c member => retrievable c ((sort_perm found).mem_iff.mp member)

/-- The first candidates for each file are the least spellings of the files. -/
theorem mem_first (c : Candidate) : c ∈ firstOfEach [] (sort found) ↔ LeastSpelling found c := by
  have among (d : Candidate) : d ∈ sort found ↔ d ∈ found := (sort_perm found).mem_iff
  rw [mem_firstOfEach (inOrder_sort found) (retrievable_sort retrievable)]
  constructor
  · rintro ⟨⟨member, least⟩, -⟩
    exact ⟨(among c).mp member, fun d within => least d ((among d).mpr within)⟩
  · rintro ⟨member, least⟩
    exact ⟨⟨(among c).mpr member, fun d within => least d ((among d).mp within)⟩, List.not_mem_nil⟩

/-- The first candidates for each file stand in the order of their paths, without repetition. -/
theorem pairwise_first : (firstOfEach [] (sort found)).Pairwise Precedes := by
  have within := firstOfEach_sublist [] (sort found)
  have ordered : InOrder (firstOfEach [] (sort found)) := (inOrder_sort found).sublist within
  have apart := (places_firstOfEach [] (sort found)).1
  refine (ordered.and apart).imp_of_mem fun {c d} first second both => ?_
  refine lt_of_le_of_ne both.1 fun same => both.2 ?_
  rw [eq_of_parts (retrievable_sort retrievable c (within.subset first))
    (retrievable_sort retrievable d (within.subset second)) same]

/-- The first candidates for each file depend only on which candidates there are. -/
theorem first_congr {again : List Candidate} (same : ∀ c, c ∈ again ↔ c ∈ found) :
    firstOfEach [] (sort again) = firstOfEach [] (sort found) := by
  have retrievableAgain : ∀ c ∈ again, c.Retrievable tree := fun c member => retrievable c ((same c).mp member)
  refine (pairwise_first retrievableAgain).eq_of_mem_iff (pairwise_first retrievable) fun c => ?_
  rw [mem_first retrievableAgain, mem_first retrievable]
  constructor
  · rintro ⟨member, least⟩
    exact ⟨(same c).mp member, fun d within => least d ((same d).mpr within)⟩
  · rintro ⟨member, least⟩
    exact ⟨(same c).mpr member, fun d within => least d ((same d).mp within)⟩

/-- What is selected from the first candidates for each file are the least spellings that pass the filter, in
the order of their paths. -/
theorem selected_listing {root : Path} {filter : Filter} {listed : List Candidate}
    (selected : select tree root filter (firstOfEach [] (sort found)) = .ok listed) :
    listed.Pairwise Precedes ∧
      ∀ c, c ∈ listed ↔ LeastSpelling found c ∧ passes tree root filter c = .ok true := by
  obtain ⟨sublist, each⟩ := mem_select selected
  refine ⟨(pairwise_first retrievable).sublist sublist, fun c => ?_⟩
  rw [each, mem_first retrievable]

end Enumerated

/-- What is discovered is a canonical listing.

It stands in the strict order of the parts of the paths. It holds only files that were enumerated, each where its path
leads, and none of them twice. Every file that was enumerated has a least spelling among the paths that lead to it,
and a header is listed exactly if it is a least spelling whose path relative to the root of the enumeration no rule
excludes and whose size lies within the limit. An enumeration in another order, or with repetitions, gives the same
listing.

Candidates are sorted by their parts, so the first for a file is its least spelling, and the parts of a path determine
it. A listing in strict order is determined by its members, which depend on the candidates only as a set. -/
theorem discover_lists_canonically {pattern : String} {recurse : Bool} {filter : Filter}
    {listed : List Candidate} (discovered : discover tree pattern recurse filter = .ok listed) :
    ∃ root found, enumerate tree pattern recurse = .ok (root, found) ∧
      listed.Pairwise (fun c d => c.path.parts < d.path.parts) ∧
      (∀ c ∈ listed, c ∈ found ∧ tree.isFile c.place = true ∧ tree.find? c.path = .ok (some c.place)) ∧
      listed.Pairwise (fun c d => c.place ≠ d.place) ∧
      (∀ c ∈ found, ∃ p, LeastSpelling found p ∧ p.place = c.place) ∧
      (∀ p, p ∈ listed ↔ LeastSpelling found p ∧ ∃ names, root.under? p.path = some names ∧
        anyExcludes ⟨.none, names⟩ filter.rules = .ok false ∧ filter.limit.Holds (tree.sizeOf p.place)) ∧
      ∀ again, (∀ c, c ∈ again ↔ c ∈ found) →
        select tree root filter (firstOfEach [] (sort again)) = .ok listed := by
  obtain ⟨root, found, enumerated, selected⟩ := discover_eq_ok.mp discovered
  have retrievable := retrievable_enumerate enumerated
  obtain ⟨ordered, each⟩ := selected_listing retrievable selected
  refine ⟨root, found, enumerated, ordered, ?files, ?apart, ?least, ?kept, ?canonical⟩
  case files =>
    intro c member
    have among := ((each c).mp member).1.member
    exact ⟨among, (retrievable c among).file, (retrievable c among).found⟩
  case apart => exact (places_firstOfEach [] (sort found)).1.sublist (mem_select selected).1
  case least =>
    intro c member
    obtain ⟨p, first, same⟩ := exists_firstOfEach ((sort_perm found).mem_iff.mpr member) List.not_mem_nil
    exact ⟨p, (mem_first retrievable p).mp first, same⟩
  case kept =>
    intro p
    rw [each, and_congr_right_iff]
    intro least
    obtain ⟨names, below⟩ := under_root enumerated p least.member
    rw [passes_eq_true, relativePath, below, Path.under?_append, SizeLimit.admits_eq_true]
    simp
  case canonical =>
    intro again same
    rw [first_congr retrievable same]
    exact selected

/-- A directory with a header beside two other directories. -/
def gallery : Tree := ⟨[["east"], ["west"]], [(["hall.h"], "int hall;\n".toUTF8)], by decide⟩

/-- The header in the gallery, by way of a directory beside it. -/
def hallBy (wing : String) : Candidate := ⟨⟨.none, [wing, "..", "hall.h"]⟩, ["hall.h"]⟩

/-- Two ways lead to one header, and the lesser stands for it, in whatever order they are found. -/
theorem gallery_listed_canonically :
    discover gallery "*/../*.h" false Filter.standard = .ok [hallBy "east"] ∧
      LeastSpelling [hallBy "east", hallBy "west"] (hallBy "east") ∧
      ∀ again, (∀ c, c ∈ again ↔ c ∈ [hallBy "east", hallBy "west"]) →
        select gallery ⟨.none, []⟩ Filter.standard (firstOfEach [] (sort again)) = .ok [hallBy "east"] := by
  have enumerated : enumerate gallery "*/../*.h" false =
      .ok (⟨.none, []⟩, [hallBy "east", hallBy "west"]) := by decide +kernel
  have discovered : discover gallery "*/../*.h" false Filter.standard = .ok [hallBy "east"] := by
    rw [discover_of_ordered enumerated (by decide +kernel)]
    decide +kernel
  obtain ⟨root, found, same, -, -, -, -, kept, canonical⟩ := discover_lists_canonically discovered
  obtain ⟨rfl, rfl⟩ := Prod.mk.inj (Except.ok.inj (enumerated.symm.trans same))
  exact ⟨discovered, ((kept _).mp List.mem_cons_self).1, canonical⟩

end Discovery

end ComLayout
