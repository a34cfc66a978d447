/-
# Pkgsrc.Proofs.Pattern.Decision -- the leaf that decides

A candidate is tried on the leaves of a pattern from left to right, however deep they are, and a
leaf that refuses it is passed over.  The first one that does not decides (`Leaf.Decides`): a leaf
that accepts the candidate is the answer, and the fault of a leaf that faults is.  Where no leaf
decides there is no answer (`decides_or_refused`).

* The answer is the outcome of the deciding leaf (`firstLeaf_of_decides`), and the leaves after
  it do not count.
* A candidate without hyphen faults on relations and ranges, and only there it is malformed
  (`accepts_eq_malformedName_iff`).  So a pattern finds it malformed exactly when one of them
  stands before all leaves that accept it or fault for another reason
  (`firstLeaf_eq_malformedName_iff`).
-/
import Pkgsrc.Proofs.Pattern.Plain

namespace Pkgsrc

set_option autoImplicit false

namespace Leaf

variable {candidate : Text} {tests : List Leaf} {leaf : Leaf}

/-- Of these leaves this one decides: those before it refuse the candidate, and it does not. -/
def Decides (candidate : Text) (tests : List Leaf) (leaf : Leaf) : Prop :=
  ∃ earlier later, tests = earlier ++ leaf :: later ∧
    (∀ other ∈ earlier, other.accepts candidate = .ok false) ∧
    leaf.accepts candidate ≠ .ok false

theorem decides_head (decided : leaf.accepts candidate ≠ .ok false) (later : List Leaf) :
    Decides candidate (leaf :: later) leaf :=
  ⟨[], later, rfl, by simp, decided⟩

/-! ## The outcome -/

theorem firstLeaf_append_of_refused {earlier : List Leaf}
    (refused : ∀ other ∈ earlier, other.accepts candidate = .ok false) (later : List Leaf) :
    firstLeaf candidate (earlier ++ later) = firstLeaf candidate later := by
  induction earlier with
  | nil => rfl
  | cons other earlier ih =>
      obtain ⟨first, others⟩ := List.forall_mem_cons.1 refused
      rw [List.cons_append, firstLeaf, first]
      exact ih others

/-- The answer is the outcome of the deciding leaf. -/
theorem firstLeaf_of_decides (decides : Decides candidate tests leaf) :
    firstLeaf candidate tests = (leaf.accepts candidate).map fun _ => some leaf := by
  obtain ⟨earlier, later, rfl, refused, decided⟩ := decides
  rw [firstLeaf_append_of_refused refused, firstLeaf]
  cases tried : leaf.accepts candidate with
  | error fault => rfl
  | ok held =>
      cases held with
      | true => rfl
      | false => exact absurd tried decided

theorem decides_or_refused (candidate : Text) (tests : List Leaf) :
    (∃ leaf, Decides candidate tests leaf) ∨
      ∀ leaf ∈ tests, leaf.accepts candidate = .ok false := by
  induction tests with
  | nil => exact Or.inr (by simp)
  | cons leaf tests ih =>
      by_cases refused : leaf.accepts candidate = .ok false
      · rcases ih with ⟨decider, earlier, later, rfl, before, decided⟩ | others
        · exact Or.inl ⟨decider, leaf :: earlier, later, rfl,
            List.forall_mem_cons.2 ⟨refused, before⟩, decided⟩
        · exact Or.inr (List.forall_mem_cons.2 ⟨refused, others⟩)
      · exact Or.inl ⟨leaf, decides_head refused tests⟩

theorem firstLeaf_of_refused (refused : ∀ leaf ∈ tests, leaf.accepts candidate = .ok false) :
    firstLeaf candidate tests = .ok none := by
  have passed := firstLeaf_append_of_refused refused []
  rwa [List.append_nil] at passed

theorem firstLeaf_eq_some_iff :
    firstLeaf candidate tests = .ok (some leaf) ↔
      Decides candidate tests leaf ∧ leaf.accepts candidate = .ok true := by
  constructor
  · intro found
    rcases decides_or_refused candidate tests with ⟨decider, decides⟩ | refused
    · rw [firstLeaf_of_decides decides] at found
      obtain ⟨held, tried, same⟩ := map_eq_ok_iff.1 found
      cases same
      refine ⟨decides, ?_⟩
      obtain ⟨earlier, later, -, -, decided⟩ := decides
      cases held with
      | true => exact tried
      | false => exact absurd tried decided
    · rw [firstLeaf_of_refused refused] at found
      cases found
  · rintro ⟨decides, accepted⟩
    rw [firstLeaf_of_decides decides, accepted]
    rfl

theorem firstLeaf_eq_error_iff {fault : Matching.Fault} :
    firstLeaf candidate tests = .error fault ↔
      ∃ leaf, Decides candidate tests leaf ∧ leaf.accepts candidate = .error fault := by
  constructor
  · intro failed
    rcases decides_or_refused candidate tests with ⟨decider, decides⟩ | refused
    · rw [firstLeaf_of_decides decides] at failed
      exact ⟨decider, decides, map_eq_error_iff.1 failed⟩
    · rw [firstLeaf_of_refused refused] at failed
      cases failed
  · rintro ⟨decider, decides, failed⟩
    rw [firstLeaf_of_decides decides, failed]
    rfl

theorem firstLeaf_eq_none_iff :
    firstLeaf candidate tests = .ok none ↔ ¬ ∃ leaf, Decides candidate tests leaf := by
  constructor
  · rintro found ⟨decider, decides⟩
    rw [firstLeaf_of_decides decides] at found
    obtain ⟨held, -, same⟩ := map_eq_ok_iff.1 found
    cases same
  · intro undecided
    rcases decides_or_refused candidate tests with decided | refused
    · exact absurd decided undecided
    · exact firstLeaf_of_refused refused

/-- What stands after a leaf that does not refuse the candidate does not count. -/
theorem firstLeaf_append_cons_congr (decided : leaf.accepts candidate ≠ .ok false)
    (earlier later later' : List Leaf) :
    firstLeaf candidate (earlier ++ leaf :: later) =
      firstLeaf candidate (earlier ++ leaf :: later') := by
  have same : firstLeaf candidate (leaf :: later) = firstLeaf candidate (leaf :: later') := by
    rw [firstLeaf_of_decides (decides_head decided later),
      firstLeaf_of_decides (decides_head decided later')]
  rw [Pattern.firstLeaf_append, Pattern.firstLeaf_append, same]

/-! ## Malformed candidates -/

/-- The leaf looks at the version of a candidate. -/
def ComparesVersions : Leaf → Prop
  | .relation _ => True
  | .range _ _ _ => True
  | _ => False

theorem byVersion_eq_malformedName_iff {base name : Text}
    {test : Text → Except NumberFault Bool} :
    Matching.byVersion base test candidate = .error (.malformedName name) ↔
      name = candidate ∧ '-' ∉ candidate := by
  rw [← PkgName.ofText?_eq_none_iff]
  cases named : PkgName.ofText? candidate with
  | none =>
      rw [Matching.byVersion_of_unnamed named]
      simp [eq_comm]
  | some pkgName =>
      refine iff_of_false ?_ (by simp)
      by_cases same : pkgName.base = base
      · rw [Matching.byVersion_of_eq named same]
        cases test pkgName.version <;> simp [Matching.ofNumber]
      · rw [Matching.byVersion_of_ne named same]
        simp

theorem accepts_eq_malformedName_iff {name : Text} :
    leaf.accepts candidate = .error (.malformedName name) ↔
      leaf.ComparesVersions ∧ name = candidate ∧ '-' ∉ candidate := by
  cases leaf with
  | relation wanted =>
      rw [accepts_relation, byVersion_eq_malformedName_iff]
      simp [ComparesVersions]
  | range base lower upper =>
      rw [accepts_range, byVersion_eq_malformedName_iff]
      simp [ComparesVersions]
  | _ => simp [accepts, ComparesVersions]

/-- The leaf accepts the candidate, or faults on it although it is not malformed. -/
def MatchesOrFaultsOtherwise (candidate : Text) (leaf : Leaf) : Prop :=
  leaf.accepts candidate = .ok true ∨
    ∃ fault, leaf.accepts candidate = .error fault ∧ fault ≠ .malformedName candidate

theorem firstLeaf_eq_malformedName_iff (noHyphen : '-' ∉ candidate) :
    firstLeaf candidate tests = .error (.malformedName candidate) ↔
      ∃ earlier leaf later, tests = earlier ++ leaf :: later ∧ leaf.ComparesVersions ∧
        ∀ other ∈ earlier, ¬ MatchesOrFaultsOtherwise candidate other := by
  rw [firstLeaf_eq_error_iff]
  constructor
  · rintro ⟨leaf, ⟨earlier, later, shape, refused, -⟩, failed⟩
    refine ⟨earlier, leaf, later, shape, (accepts_eq_malformedName_iff.1 failed).1, ?_⟩
    intro other held
    simp [MatchesOrFaultsOtherwise, refused other held]
  · rintro ⟨earlier, leaf, later, rfl, compares, others⟩
    have failed := accepts_eq_malformedName_iff.2 ⟨compares, rfl, noHyphen⟩
    -- The leaf itself decides, unless another one that compares versions stands before it.
    rcases decides_or_refused candidate earlier with ⟨decider, decides⟩ | refused
    · obtain ⟨before, after, rfl, refused, decided⟩ := decides
      have held : decider ∈ before ++ decider :: after := by simp
      refine ⟨decider, ⟨before, after ++ leaf :: later, by simp, refused, decided⟩, ?_⟩
      have neither := not_or.1 (others decider held)
      cases tried : decider.accepts candidate with
      | ok answer =>
          cases answer with
          | true => exact absurd tried neither.1
          | false => exact absurd tried decided
      | error fault =>
          by_cases malformed : fault = .malformedName candidate
          · rw [malformed]
          · exact absurd ⟨fault, tried, malformed⟩ neither.2
    · exact ⟨leaf, ⟨earlier, later, rfl, refused, by simp [failed]⟩, failed⟩

end Leaf

namespace Pattern

/-- **The first leaf that does not refuse a candidate decides.**

* The answer of a tree is that of its leaves from left to right: the deciding leaf if it accepts
  the candidate, its fault if it faults, and nothing where no leaf decides.
* A pattern accepts a candidate exactly when there is an answer, and has the same faults.
* The answer is a leaf that answers for itself.
* Only a candidate without hyphen is malformed, exactly when a leaf that compares versions stands
  before all leaves that accept it or fault otherwise.
* What stands after a leaf that does not refuse the candidate does not count. -/
theorem firstMatch_decided_by_leaf (pattern : Pattern) (candidate : Text) :
    (pattern.firstMatch candidate = Leaf.firstLeaf candidate pattern.leaves ∧
      (∀ leaf, pattern.firstMatch candidate = .ok (some leaf) ↔
        Leaf.Decides candidate pattern.leaves leaf ∧ leaf.accepts candidate = .ok true) ∧
      (∀ fault, pattern.firstMatch candidate = .error fault ↔
        ∃ leaf, Leaf.Decides candidate pattern.leaves leaf ∧
          leaf.accepts candidate = .error fault) ∧
      (pattern.firstMatch candidate = .ok none ↔
        ¬ ∃ leaf, Leaf.Decides candidate pattern.leaves leaf)) ∧
    ((pattern.accepts candidate = .ok true ↔
        ∃ leaf, pattern.firstMatch candidate = .ok (some leaf)) ∧
      ∀ fault, pattern.accepts candidate = .error fault ↔
        pattern.firstMatch candidate = .error fault) ∧
    (∀ leaf, pattern.firstMatch candidate = .ok (some leaf) →
      leaf ∈ pattern.leaves ∧ (Pattern.leaf leaf).firstMatch candidate = .ok (some leaf)) ∧
    ((∀ name, pattern.firstMatch candidate = .error (.malformedName name) →
        name = candidate ∧ '-' ∉ candidate) ∧
      ('-' ∉ candidate →
        (pattern.firstMatch candidate = .error (.malformedName candidate) ↔
          ∃ earlier leaf later, pattern.leaves = earlier ++ leaf :: later ∧
            leaf.ComparesVersions ∧
            ∀ other ∈ earlier, ¬ Leaf.MatchesOrFaultsOtherwise candidate other))) ∧
    (∀ (other : Pattern) (leaf : Leaf) (earlier later later' : List Leaf),
      pattern.leaves = earlier ++ leaf :: later → other.leaves = earlier ++ leaf :: later' →
      leaf.accepts candidate ≠ .ok false →
      other.firstMatch candidate = pattern.firstMatch candidate) := by
  simp only [firstMatch_eq_firstLeaf, accepts]
  refine ⟨⟨trivial, fun _ => Leaf.firstLeaf_eq_some_iff, fun _ => Leaf.firstLeaf_eq_error_iff,
    Leaf.firstLeaf_eq_none_iff⟩, ⟨?_, fun _ => map_eq_error_iff⟩, ?_,
    ⟨?_, Leaf.firstLeaf_eq_malformedName_iff⟩, ?_⟩
  · rw [map_eq_ok_iff]
    constructor
    · rintro ⟨answer, found, isSome⟩
      obtain ⟨leaf, rfl⟩ := Option.isSome_iff_exists.1 isSome
      exact ⟨leaf, found⟩
    · rintro ⟨leaf, found⟩
      exact ⟨some leaf, found, rfl⟩
  · intro leaf found
    obtain ⟨⟨earlier, later, shape, -⟩, accepted⟩ := Leaf.firstLeaf_eq_some_iff.1 found
    have alone : Leaf.Decides candidate [leaf] leaf := Leaf.decides_head (by simp [accepted]) []
    exact ⟨by simp [shape], Leaf.firstLeaf_eq_some_iff.2 ⟨alone, accepted⟩⟩
  · intro name failed
    obtain ⟨leaf, -, tried⟩ := Leaf.firstLeaf_eq_error_iff.1 failed
    exact (Leaf.accepts_eq_malformedName_iff.1 tried).2
  · intro other leaf earlier later later' shape otherShape decided
    rw [shape, otherShape]
    exact Leaf.firstLeaf_append_cons_congr decided earlier later' later

/-- A name, no alternatives at all, a relation and a number. -/
def mixed : Pattern :=
  .alternation [] [.leaf (.exact ['a']), .alternation [] [],
    .leaf (.relation ⟨['b'], .gt, ['1']⟩), .leaf (.value (.integer 5))]

/-- `c` is malformed to the relation, and `b-2` satisfies it whatever follows. -/
theorem firstMatch_of_mixed :
    mixed.firstMatch ['c'] = .error (.malformedName ['c']) ∧
    (mixed.firstMatch ['b', '-', '2'] = .ok (some (.relation ⟨['b'], .gt, ['1']⟩)) ∧
      (Pattern.leaf (.relation ⟨['b'], .gt, ['1']⟩)).firstMatch ['b', '-', '2'] =
        .ok (some (.relation ⟨['b'], .gt, ['1']⟩))) ∧
    ∀ later : List Pattern,
      (alternation [] (.leaf (.exact ['a']) :: .leaf (.relation ⟨['b'], .gt, ['1']⟩) ::
        later)).firstMatch ['b', '-', '2'] = mixed.firstMatch ['b', '-', '2'] := by
  have tried : (Leaf.relation ⟨['b'], .gt, ['1']⟩).accepts ['b', '-', '2'] = .ok true := rfl
  have decides : Leaf.Decides ['b', '-', '2'] mixed.leaves (.relation ⟨['b'], .gt, ['1']⟩) :=
    ⟨[.exact ['a']], [.value (.integer 5)], rfl, by simp [Leaf.accepts], by simp [tried]⟩
  have found := ((firstMatch_decided_by_leaf mixed ['b', '-', '2']).1.2.1 _).2 ⟨decides, tried⟩
  refine ⟨?_, ⟨found, ?_⟩, ?_⟩
  · refine ((firstMatch_decided_by_leaf mixed ['c']).2.2.2.1.2 (by decide)).2
      ⟨[.exact ['a']], .relation ⟨['b'], .gt, ['1']⟩, [.value (.integer 5)], rfl, trivial, ?_⟩
    simp [Leaf.MatchesOrFaultsOtherwise, Leaf.accepts]
  · exact ((firstMatch_decided_by_leaf mixed ['b', '-', '2']).2.2.1 _ found).2
  · intro later
    exact (firstMatch_decided_by_leaf mixed ['b', '-', '2']).2.2.2.2 _ _ [.exact ['a']]
      [.value (.integer 5)] (leavesOfAll later) rfl rfl (by simp [tried])

end Pattern

end Pkgsrc
