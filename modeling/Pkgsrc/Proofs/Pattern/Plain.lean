/-
# Pkgsrc.Proofs.Pattern.Plain -- what a text without braces is read as

A text that is cut at no comparison is a glob or an exact name.  One comparison makes a relation
and two a range, provided that a base stands before them and a version after each.
`Leaf.ReadFrom` lists these cases with what each of them asks of the text, and nothing else is
ever read (`parsePlain_eq_ok_iff`).  The leaf is written as the text it was read from
(`Leaf.ReadFrom.text_eq`).

A candidate with a hyphen can be tried on every leaf that was read from a text, as long as no
number in either is too long (`Leaf.ReadFrom.exists_accepts`).
-/
import Pkgsrc.Matching
import Pkgsrc.Pattern.Parse
import Pkgsrc.Proofs.Version.Limit

namespace Pkgsrc

set_option autoImplicit false

/-- The leaf that a text without braces is read as, by the cuts of the text. -/
inductive Leaf.ReadFrom (text : Text) : Leaf → Prop where
  | exact (uncut : (Cuts.read text).bounds = []) (tame : text.any Pattern.isWildcard = false) :
      ReadFrom text (.exact text)
  | glob (compiled : Glob) (uncut : (Cuts.read text).bounds = [])
      (wild : text.any Pattern.isWildcard = true) (compiles : Glob.compile text = .ok compiled) :
      ReadFrom text (.glob compiled)
  | relation (base : Text) (operator : Operator) (version : Text)
      (cut : Cuts.read text = ⟨base, [(operator, version)]⟩) (named : base ≠ [])
      (versioned : version ≠ []) :
      ReadFrom text (.relation ⟨base, operator, version⟩)
  | range (base : Text) (lower upper : Operator × Text)
      (cut : Cuts.read text = ⟨base, [lower, upper]⟩) (named : base ≠ [])
      (lowerVersioned : lower.2 ≠ []) (upperVersioned : upper.2 ≠ [])
      (isLower : lower.1.isLower = true) (isUpper : upper.1.isUpper = true) :
      ReadFrom text (.range base ⟨base, lower.1, lower.2⟩ ⟨base, upper.1, upper.2⟩)

namespace Pattern

theorem readFrom_of_ofCuts {text : Text} {leaf : Leaf} (cut : (Cuts.read text).bounds ≠ [])
    (read : ofCuts text (Cuts.read text) = .ok leaf) : leaf.ReadFrom text := by
  rcases cuts : Cuts.read text with ⟨base, bounds⟩
  rw [cuts] at cut read
  unfold ofCuts at read
  by_cases named : base = []
  · simp [named] at read
  simp only [if_neg named] at read
  rcases bounds with _ | ⟨⟨operator, version⟩, _ | ⟨upper, _ | ⟨third, others⟩⟩⟩
  · exact absurd rfl cut
  · by_cases versioned : version = []
    · simp [checkVersion, versioned, bind, Except.bind] at read
    · simp only [checkVersion, if_neg versioned, bind, Except.bind, pure, Except.pure,
        Except.ok.injEq] at read
      rw [← read]
      exact .relation base operator version cuts named versioned
  · by_cases lowerVersioned : version = []
    · simp [checkVersion, lowerVersioned, bind, Except.bind] at read
    by_cases upperVersioned : upper.2 = []
    · simp [checkVersion, lowerVersioned, upperVersioned, bind, Except.bind] at read
    by_cases sides : (operator.isLower && upper.1.isUpper) = true
    · simp only [checkVersion, if_neg lowerVersioned, if_neg upperVersioned, rangeOf, if_pos sides,
        bind, Except.bind, Except.ok.injEq] at read
      obtain ⟨isLower, isUpper⟩ := Bool.and_eq_true_iff.1 sides
      rw [← read]
      exact .range base (operator, version) upper cuts named lowerVersioned upperVersioned isLower
        isUpper
    · simp [checkVersion, lowerVersioned, upperVersioned, rangeOf, sides, bind, Except.bind] at read
  · cases read

/-- **A text without braces is read as one of the listed leaves, or not at all.** -/
theorem parsePlain_eq_ok_iff {text : Text} {leaf : Leaf} :
    parsePlain text = .ok leaf ↔ leaf.ReadFrom text := by
  constructor
  · intro read
    unfold parsePlain at read
    by_cases uncut : (Cuts.read text).bounds = []
    · by_cases wild : text.any isWildcard = true
      · simp only [uncut, ne_eq, not_true, if_false, wild, if_true] at read
        obtain ⟨compiled, compiles, rfl⟩ := map_eq_ok_iff.1 read
        exact .glob compiled uncut wild compiles
      · have tame : text.any isWildcard = false := Bool.eq_false_iff.2 wild
        simp only [uncut, ne_eq, not_true, if_false, tame, Bool.false_eq_true,
          Except.ok.injEq] at read
        rw [← read]
        exact .exact uncut tame
    · exact readFrom_of_ofCuts uncut (by simpa [uncut] using read)
  · intro read
    unfold parsePlain
    cases read with
    | exact uncut tame => simp [uncut, tame]
    | glob compiled uncut wild compiles => simp [uncut, wild, compiles, Except.map]
    | relation base operator version cut named versioned =>
        simp [cut, ofCuts, named, checkVersion, versioned, bind, Except.bind, pure, Except.pure]
    | range base lower upper cut named lowerVersioned upperVersioned isLower isUpper =>
        simp [cut, ofCuts, named, checkVersion, lowerVersioned, upperVersioned, rangeOf, isLower,
          isUpper, bind, Except.bind]

end Pattern

namespace Leaf.ReadFrom

variable {text : Text} {leaf : Leaf}

/-- The leaf is written as the text that it was read from. -/
theorem text_eq (read : leaf.ReadFrom text) : leaf.text = text := by
  have written := Cuts.text_read text
  cases read with
  | exact uncut tame => rfl
  | glob compiled uncut wild compiles => exact Glob.text_of_compile compiles
  | relation base operator version cut named versioned =>
      rw [← written, cut]
      simp [Leaf.text, Relation.text, Relation.bound, Cuts.text]
  | range base lower upper cut named lowerVersioned upperVersioned isLower isUpper =>
      rw [← written, cut]
      simp [Leaf.text, Relation.bound, Cuts.text]

end Leaf.ReadFrom

/-! ## Tests of a version -/

/-- The answer of a leaf that wants a base and tests the version of the candidate. -/
def Matching.byVersion (base : Text) (test : Text → Except NumberFault Bool) (candidate : Text) :
    Except Fault Bool := do
  let name ← readName candidate
  if name.base = base then ofNumber (test name.version) else return false

theorem Leaf.accepts_relation (wanted : Relation) (candidate : Text) :
    (Leaf.relation wanted).accepts candidate =
      Matching.byVersion wanted.base wanted.holds candidate := rfl

theorem Leaf.accepts_range (base : Text) (lower upper : Relation) (candidate : Text) :
    (Leaf.range base lower upper).accepts candidate =
      Matching.byVersion base (lower.holdBoth upper) candidate := rfl

namespace Matching

variable {base candidate : Text} {test : Text → Except NumberFault Bool}

theorem byVersion_of_unnamed (unnamed : PkgName.ofText? candidate = none) :
    byVersion base test candidate = .error (.malformedName candidate) := by
  rw [byVersion, readName, unnamed]
  rfl

theorem byVersion_of_ne {name : PkgName} (named : PkgName.ofText? candidate = some name)
    (differs : name.base ≠ base) : byVersion base test candidate = .ok false := by
  simp [byVersion, readName, named, differs, bind, Except.bind, pure, Except.pure]

theorem byVersion_of_eq {name : PkgName} (named : PkgName.ofText? candidate = some name)
    (same : name.base = base) : byVersion base test candidate = ofNumber (test name.version) := by
  simp [byVersion, readName, named, same, bind, Except.bind]

/-- Only a malformed candidate and a number that is too long are failures. -/
theorem fault_of_byVersion {fault : Fault}
    (failed : byVersion base test candidate = .error fault) :
    fault = .malformedName candidate ∨ ∃ cause, fault = .number cause := by
  cases named : PkgName.ofText? candidate with
  | none =>
      rw [byVersion_of_unnamed named] at failed
      cases failed
      exact Or.inl rfl
  | some name =>
      by_cases same : name.base = base
      · rw [byVersion_of_eq named same] at failed
        cases tested : test name.version with
        | ok held => rw [tested] at failed; cases failed
        | error cause =>
            rw [tested] at failed
            cases failed
            exact Or.inr ⟨cause, rfl⟩
      · rw [byVersion_of_ne named same] at failed
        cases failed

/-- A candidate with a hyphen has a version, which can be tested unless a number is too long. -/
theorem exists_byVersion (hyphen : '-' ∈ candidate) (short : Decimal.Within candidate)
    (testable : ∀ version, Decimal.Within version → ∃ held, test version = .ok held) :
    ∃ held, byVersion base test candidate = .ok held := by
  cases named : PkgName.ofText? candidate with
  | none => exact absurd hyphen (PkgName.ofText?_eq_none_iff.1 named)
  | some name =>
      by_cases same : name.base = base
      · have inside : name.version <:+: candidate :=
          ⟨name.base ++ ['-'], [], by simp [← PkgName.text_of_ofText? named, PkgName.text]⟩
        obtain ⟨held, tested⟩ := testable name.version (short.of_infix inside)
        exact ⟨held, by rw [byVersion_of_eq named same, tested]; rfl⟩
      · exact ⟨false, byVersion_of_ne named same⟩

end Matching

/-- A relation can be tried on a version when no number is too long. -/
theorem Relation.exists_holds (relation : Relation) {version : Text}
    (short : Decimal.Within version) (shortBound : Decimal.Within relation.version) :
    ∃ held, relation.holds version = .ok held := by
  obtain ⟨as, left⟩ := Version.components_isOk_iff.2 short
  obtain ⟨bs, right⟩ := Version.components_isOk_iff.2 shortBound
  refine ⟨relation.operator.holds (Version.compareComponents as bs), ?_⟩
  rw [holds, Version.order, left, right]
  rfl

theorem Relation.exists_holdBoth (lower upper : Relation) {version : Text}
    (short : Decimal.Within version) (shortLower : Decimal.Within lower.version)
    (shortUpper : Decimal.Within upper.version) :
    ∃ held, lower.holdBoth upper version = .ok held := by
  obtain ⟨left, lowerHolds⟩ := lower.exists_holds short shortLower
  obtain ⟨right, upperHolds⟩ := upper.exists_holds short shortUpper
  refine ⟨left && right, ?_⟩
  rw [holdBoth, lowerHolds, upperHolds]
  cases left <;> rfl

/-! ## Candidates -/

namespace Leaf.ReadFrom

variable {text candidate : Text} {leaf : Leaf}

/-- A leaf that was read fails on a malformed candidate or a long number only. -/
theorem fault_of_accepts (read : leaf.ReadFrom text) {fault : Matching.Fault}
    (failed : leaf.accepts candidate = .error fault) :
    fault = .malformedName candidate ∨ ∃ cause, fault = .number cause := by
  cases read with
  | exact uncut tame => cases failed
  | glob compiled uncut wild compiles => cases failed
  | relation base operator version cut based versioned =>
      rw [accepts_relation] at failed
      exact Matching.fault_of_byVersion failed
  | range base lower upper cut based lowerVersioned upperVersioned isLower isUpper =>
      rw [accepts_range] at failed
      exact Matching.fault_of_byVersion failed

/-- **No number in the way, a candidate with a hyphen can be tried on a leaf.** -/
theorem exists_accepts (read : leaf.ReadFrom text) (hyphen : '-' ∈ candidate)
    (short : Decimal.Within candidate) (shortText : Decimal.Within text) :
    ∃ held, leaf.accepts candidate = .ok held := by
  rw [← read.text_eq] at shortText
  cases read with
  | exact uncut tame => exact ⟨_, rfl⟩
  | glob compiled uncut wild compiles => exact ⟨_, rfl⟩
  | relation base operator version cut based versioned =>
      have shortBound : Decimal.Within version := shortText.of_infix
        ⟨base ++ operator.text, [], by simp [Leaf.text, Relation.text, Relation.bound]⟩
      rw [accepts_relation]
      exact Matching.exists_byVersion hyphen short fun _ shortVersion =>
        Relation.exists_holds _ shortVersion shortBound
  | range base lower upper cut based lowerVersioned upperVersioned isLower isUpper =>
      have shortLower : Decimal.Within lower.2 := shortText.of_infix
        ⟨base ++ lower.1.text, upper.1.text ++ upper.2, by simp [Leaf.text, Relation.bound]⟩
      have shortUpper : Decimal.Within upper.2 := shortText.of_infix
        ⟨base ++ lower.1.text ++ lower.2 ++ upper.1.text, [], by simp [Leaf.text, Relation.bound]⟩
      rw [accepts_range]
      exact Matching.exists_byVersion hyphen short fun _ shortVersion =>
        Relation.exists_holdBoth _ _ shortVersion shortLower shortUpper

/-- Without a hyphen in the candidate no number is compared. -/
theorem accepts_ne_number (read : leaf.ReadFrom text) (noHyphen : '-' ∉ candidate)
    (cause : NumberFault) : leaf.accepts candidate ≠ .error (.number cause) := by
  have unnamed := PkgName.ofText?_eq_none_iff.2 noHyphen
  intro failed
  cases read with
  | exact uncut tame => cases failed
  | glob compiled uncut wild compiles => cases failed
  | relation base operator version cut based versioned =>
      rw [accepts_relation, Matching.byVersion_of_unnamed unnamed] at failed
      cases failed
  | range base lower upper cut based lowerVersioned upperVersioned isLower isUpper =>
      rw [accepts_range, Matching.byVersion_of_unnamed unnamed] at failed
      cases failed

end Leaf.ReadFrom

end Pkgsrc
