/-
# Pkgsrc.Proofs.Operand.Symmetry -- equality from the other side

Whether two operands are equal does not depend on which of them stands on the left, with one
exception.  A name on the left takes a comparison pattern for the name made of its base and
version, and a pattern on the left differs from every name: `foo-1.0` equals `foo>=1.0`, but not
the other way round (`name_same_as_its_relation`).

Without names both sides are taken apart alike and compared part by part (`same_comm_of_unnamed`),
faults included: two patterns come to two blanks from the one side when they do from the other
(`Pattern.meetBlanks_comm`).  Two names compare their versions, which asked the other way round
give the opposite order (`sameName_comm`).  A text is read by whatever it meets.  What is left is
the exception, and `same_comm_iff_not_mistaken` says exactly when it shows.
-/
import Pkgsrc.Operand
import Pkgsrc.Proofs.Pattern.Expansion
import Pkgsrc.Proofs.Version.Lexicographic

namespace Pkgsrc

set_option autoImplicit false

/-! ## Patterns from the other side -/

theorem Value.same_comm (a b : Value) : a.same b = b.same a :=
  BEq.comm

theorem Leaf.same_comm (a b : Leaf) : a.same b = b.same a := by
  cases a with
  | value a =>
      cases b with
      | value b => exact a.same_comm b
      | _ => exact BEq.comm
  | _ => cases b <;> exact BEq.comm

namespace Pattern

mutual

theorem same_comm (a b : Pattern) : a.same b = b.same a := by
  match a, b with
  | .leaf a, .leaf b => exact a.same_comm b
  | .leaf _, .alternation _ _ => rfl
  | .alternation _ _, .leaf _ => rfl
  | .alternation a as, .alternation b bs => rw [same, same, sameAll_comm as bs, BEq.comm]

theorem sameAll_comm (as bs : List Pattern) : sameAll as bs = sameAll bs as := by
  match as, bs with
  | [], [] => rfl
  | [], _ :: _ => rfl
  | _ :: _, [] => rfl
  | a :: as, b :: bs => rw [sameAll, sameAll, a.same_comm b, sameAll_comm as bs]

end

mutual

theorem meetBlanks_comm (a b : Pattern) : a.meetBlanks b = b.meetBlanks a := by
  match a, b with
  | .leaf a, .leaf b => exact Bool.and_comm _ _
  | .leaf _, .alternation _ _ => rfl
  | .alternation _ _, .leaf _ => rfl
  | .alternation a as, .alternation b bs =>
      rw [meetBlanks, meetBlanks, anyMeetBlanks_comm as bs, BEq.comm]

theorem anyMeetBlanks_comm (as bs : List Pattern) : anyMeetBlanks as bs = anyMeetBlanks bs as := by
  match as, bs with
  | [], [] => rfl
  | [], _ :: _ => rfl
  | _ :: _, [] => rfl
  | a :: as, b :: bs =>
      rw [anyMeetBlanks, anyMeetBlanks, a.meetBlanks_comm b, a.same_comm b,
        anyMeetBlanks_comm as bs]

end

end Pattern

theorem Depend.same_comm (a b : Depend) : a.same b = b.same a := by
  rw [Depend.same, Depend.same, a.pattern.same_comm b.pattern, BEq.comm (a := a.pkgpath)]

namespace Operand

/-! ## Names from the other side -/

theorem sameName_comm (a b : PkgName) : sameName a (.pkgName b) = sameName b (.pkgName a) := by
  by_cases alike : a.base = b.base
  · simp only [sameName, PkgName.holdsOf, asName?, baseVersion?, PkgName.orderAgainst, alike,
      if_true]
    rw [Version.order_swap b.version a.version]
    cases Version.order b.version a.version with
    | error fault => rfl
    | ok result => cases result <;> rfl
  · have apart : ¬ b.base = a.base := fun same => alike same.symm
    simp [sameName, PkgName.holdsOf, asName?, baseVersion?, PkgName.orderAgainst, alike, apart]

/-- Only a relation is taken for a name by a name, and by nothing else. -/
theorem same_name_comm (name : PkgName) {other : Operand}
    (noRelation : ∀ wanted, other ≠ .pattern (.leaf (.relation wanted))) :
    same (.pkgName name) other = same other (.pkgName name) := by
  cases other with
  | pkgName other => exact sameName_comm name other
  | pattern tree =>
      have unnamed : (pattern tree).asName? = none := by
        match tree with
        | .alternation _ _ => rfl
        | .leaf (.relation wanted) => exact absurd rfl (noRelation wanted)
        | .leaf (.exact _) | .leaf (.range _ _ _) | .leaf (.glob _) | .leaf (.value _)
        | .leaf .blank => rfl
      rw [same, sameName, PkgName.holdsOf, unnamed]
      rfl
  | _ => rfl

/-- Where no name is compared, either operand may stand on the left. -/
theorem same_comm_of_unnamed {a b : Operand} (unnamed : ∀ name, a ≠ .pkgName name)
    (unnamed' : ∀ name, b ≠ .pkgName name) : same a b = same b a := by
  cases a with
  | pkgName name => exact absurd rfl (unnamed name)
  | pkgPath path =>
      cases b with
      | pkgName name => exact absurd rfl (unnamed' name)
      | pkgPath other => exact congrArg Except.ok BEq.comm
      | _ => rfl
  | depend entry =>
      cases b with
      | pkgName name => exact absurd rfl (unnamed' name)
      | depend other => exact congrArg Except.ok (entry.same_comm other)
      | _ => rfl
  | pattern tree =>
      cases b with
      | pkgName name => exact absurd rfl (unnamed' name)
      | pattern other => rw [same, same, tree.meetBlanks_comm other, tree.same_comm other]
      | _ => rfl
  | glob compiled =>
      cases b with
      | pkgName name => exact absurd rfl (unnamed' name)
      | glob other => exact congrArg Except.ok BEq.comm
      | _ => rfl
  | charSet chars =>
      cases b with
      | pkgName name => exact absurd rfl (unnamed' name)
      | charSet other => exact congrArg Except.ok BEq.comm
      | _ => rfl
  | value plain =>
      cases b with
      | pkgName name => exact absurd rfl (unnamed' name)
      | value other => exact congrArg Except.ok (plain.same_comm other)
      | _ => rfl

/-! ## The exception -/

/-- The left operand is a name that does not tell itself from the relation on the right: they have
one base, and the name's version is neither older nor newer than the bound. -/
inductive Mistakes : Operand → Operand → Prop where
  | intro {name : PkgName} {wanted : Relation} (alike : name.base = wanted.base)
      (notOlder : ¬ Version.Older name.version wanted.version)
      (notNewer : ¬ Version.Newer name.version wanted.version) :
      Mistakes (.pkgName name) (.pattern (.leaf (.relation wanted)))

/-- A name differs from a relation if it has another base, or a version on either side of the
bound. -/
theorem same_relation_iff {name : PkgName} {wanted : Relation} :
    same (.pkgName name) (.pattern (.leaf (.relation wanted))) = .ok false ↔
      ¬ Mistakes (.pkgName name) (.pattern (.leaf (.relation wanted))) := by
  by_cases alike : name.base = wanted.base
  · have asked : same (.pkgName name) (.pattern (.leaf (.relation wanted))) =
        ((Version.order name.version wanted.version).map fun result => result == .eq).mapError
          .number := by
      simp only [same, sameName, PkgName.holdsOf, asName?, baseVersion?, PkgName.orderAgainst,
        alike, if_true]
      cases Version.order name.version wanted.version <;> rfl
    rw [asked]
    cases compared : Version.order name.version wanted.version with
    | error fault =>
        refine iff_of_false (by simp [Except.map, Except.mapError]) (not_not_intro ?_)
        exact .intro alike (by simp [Version.Older, compared]) (by simp [Version.Newer, compared])
    | ok result =>
        cases result with
        | lt =>
            refine iff_of_true rfl ?_
            rintro ⟨-, notOlder, -⟩
            exact notOlder compared
        | gt =>
            refine iff_of_true rfl ?_
            rintro ⟨-, -, notNewer⟩
            exact notNewer compared
        | eq =>
            refine iff_of_false (by simp [Except.map, Except.mapError]) (not_not_intro ?_)
            exact .intro alike (by simp [Version.Older, compared])
              (by simp [Version.Newer, compared])
  · have differs : same (.pkgName name) (.pattern (.leaf (.relation wanted))) = .ok false := by
      simp [same, sameName, PkgName.holdsOf, asName?, baseVersion?, PkgName.orderAgainst, alike,
        Except.map, Except.mapError]
    refine iff_of_true differs ?_
    rintro ⟨same, -, -⟩
    exact alike same

/-- No operand mistakes a name. -/
theorem not_mistakes_name (other : Operand) (name : PkgName) : ¬ Mistakes other (.pkgName name) := by
  rintro ⟨⟩

/-- A name and another operand compare alike from both sides unless the name mistakes it. -/
theorem same_name_comm_iff (name : PkgName) (other : Operand) :
    same (.pkgName name) other = same other (.pkgName name) ↔ ¬ Mistakes (.pkgName name) other := by
  by_cases relation : ∃ wanted, other = .pattern (.leaf (.relation wanted))
  · obtain ⟨wanted, rfl⟩ := relation
    exact same_relation_iff
  · have noRelation := not_exists.1 relation
    refine iff_of_true (same_name_comm name noRelation) ?_
    rintro ⟨⟩
    exact noRelation _ rfl

/-- **Equality is symmetric, but for a name and a relation that it mistakes for its like.**  From
the other side the answer is the same, faults included, unless one of the two mistakes the other;
and two operands differ exactly when they are not equal. -/
theorem same_comm_iff_not_mistaken (a b : Operand) :
    (same a b = same b a ↔ ¬ (a.Mistakes b ∨ b.Mistakes a)) ∧
      differ a b = (same a b).map not := by
  refine ⟨?_, rfl⟩
  by_cases left : ∃ name, a = .pkgName name
  · obtain ⟨name, rfl⟩ := left
    rw [or_iff_left (not_mistakes_name b name)]
    exact same_name_comm_iff name b
  by_cases right : ∃ name, b = .pkgName name
  · obtain ⟨name, rfl⟩ := right
    rw [or_iff_right (not_mistakes_name a name), eq_comm]
    exact same_name_comm_iff name a
  · have unnamed := not_exists.1 left
    have unnamed' := not_exists.1 right
    refine iff_of_true (same_comm_of_unnamed unnamed unnamed') ?_
    rintro (mistaken | mistaken)
    · cases mistaken
      exact unnamed _ rfl
    · cases mistaken
      exact unnamed' _ rfl

/-- `foo-1.0` equals `foo>=1.0`, which does not equal `foo-1.0`. -/
theorem name_same_as_its_relation :
    ∃ name wanted,
      PkgName.ofText? ['f', 'o', 'o', '-', '1', '.', '0'] = some name ∧
      Pattern.parse ['f', 'o', 'o', '>', '=', '1', '.', '0'] = .ok wanted ∧
      same (.pkgName name) (.ofPattern wanted) = .ok true ∧
      same (.ofPattern wanted) (.pkgName name) = .ok false := by
  refine ⟨⟨['f', 'o', 'o'], ['1', '.', '0'], by decide⟩,
    .leaf (.relation ⟨['f', 'o', 'o'], .ge, ['1', '.', '0']⟩), rfl, ?_, rfl, rfl⟩
  rw [Pattern.parse_of_no_braces (by decide)]
  rfl

end Operand

end Pkgsrc
