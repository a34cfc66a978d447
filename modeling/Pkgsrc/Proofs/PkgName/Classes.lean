/-
# Pkgsrc.Proofs.PkgName.Classes -- names that are equal

Two names are equal when their bases are the same and their versions are equal, which need not be
spelled alike (`equal_iff`).  Versions are not ordered transitively, but their equality is an
equivalence, and so is that of names.  Names of one base are less than, equal to or greater than
each other, and names of different bases are nothing of the kind.

A name is kept among distinct ones if no kept name equals it.  That is to ask whether any name
before it equals it, since the kept ones stand for all of them (`exists_distinct`).  It is enough to
ask those that hash alike, since a name of another hash has another base (`isAmong_of_hash`).
-/
import Pkgsrc.Proofs.Matcher.Relations
import Pkgsrc.Proofs.Version.Sorted

namespace Pkgsrc

set_option autoImplicit false

open Version

namespace PkgName

/-- The names are found to be equal. -/
def Equal (a b : PkgName) : Prop :=
  a.same b = .ok true

instance (a b : PkgName) : Decidable (Equal a b) := inferInstanceAs (Decidable (_ = _))

/-! ## Comparisons -/

section Comparisons

variable {a b c : PkgName}

theorem holds_of_base_ne (apart : a.base ≠ b.base) (operator : Operator) :
    holds operator a b = .ok false := by
  simp [holds, orderAgainst, apart, Except.map]

theorem holds_of_order (alike : a.base = b.base) {result : Ordering}
    (compared : order a.version b.version = .ok result) (operator : Operator) :
    holds operator a b = .ok (operator.holds result) := by
  simp [holds, orderAgainst, alike, compared, Except.map]

theorem exists_holds (operator : Operator) (left : Decimal.Within a.version)
    (right : Decimal.Within b.version) : ∃ held, holds operator a b = .ok held := by
  by_cases alike : a.base = b.base
  · obtain ⟨result, compared⟩ := exists_order_of_within left right
    exact ⟨_, holds_of_order alike compared operator⟩
  · exact ⟨false, holds_of_base_ne alike operator⟩

theorem equal_iff : Equal a b ↔ a.base = b.base ∧ Alike a.version b.version := by
  by_cases alike : a.base = b.base
  · simp only [Equal, same, holds, orderAgainst, alike, if_true, true_and, Alike]
    cases order a.version b.version with
    | error fault => simp [Except.map]
    | ok result => cases result <;> simp [Except.map, Operator.holds]
  · simp [Equal, same, holds_of_base_ne alike, alike]

theorem equal_self (within : Decimal.Within a.version) : Equal a a :=
  equal_iff.2 ⟨rfl, alike_self within⟩

theorem Equal.symm (equal : Equal a b) : Equal b a := by
  obtain ⟨base, version⟩ := equal_iff.1 equal
  exact equal_iff.2 ⟨base.symm, version.symm⟩

theorem Equal.trans (first : Equal a b) (second : Equal b c) : Equal a c := by
  obtain ⟨base, version⟩ := equal_iff.1 first
  obtain ⟨base', version'⟩ := equal_iff.1 second
  exact equal_iff.2 ⟨base.trans base', version.trans version'⟩

theorem hash_eq_of_base_eq (alike : a.base = b.base) : hash a = hash b := by
  change hash a.base = hash b.base
  rw [alike]

/-- How names of one base compare: each comparison is answered, just one of less, equal and greater
holds, and the others follow from these. -/
structure Comparable (a b : PkgName) : Prop where
  answered : ∀ operator, ∃ held, holds operator a b = .ok held
  trichotomy : ∃! operator, operator ∈ [.lt, .eq, .gt] ∧ holds operator a b = .ok true
  atMost : holds .le a b = .ok true ↔ holds .lt a b = .ok true ∨ Equal a b
  atLeast : holds .ge a b = .ok true ↔ holds .gt a b = .ok true ∨ Equal a b
  mirrored : holds .lt a b = holds .gt b a

theorem comparable_of_base_eq (alike : a.base = b.base) (left : Decimal.Within a.version)
    (right : Decimal.Within b.version) : Comparable a b := by
  obtain ⟨result, compared⟩ := exists_order_of_within left right
  have back : order b.version a.version = .ok result.swap := by
    rw [order_swap, compared]
    rfl
  have forth := holds_of_order alike compared
  refine ⟨fun operator => ⟨_, forth operator⟩, ?_, ?_, ?_, ?_⟩
  · simpa only [forth, Except.ok.injEq] using Operator.existsUnique_holds result
  · rw [Equal, same, forth, forth, forth]
    cases result <;> decide
  · rw [Equal, same, forth, forth, forth]
    cases result <;> decide
  · rw [forth, holds_of_order alike.symm back, ← Operator.holds_mirrored .lt result]
    rfl

end Comparisons

/-! ## Membership -/

variable {name : PkgName} {names seen : List PkgName}

theorem isAmong_eq (within : Decimal.Within name.version)
    (withinSeen : ∀ other ∈ seen, Decimal.Within other.version) :
    name.isAmong seen = .ok (seen.any fun other => Equal other name) := by
  induction seen with
  | nil => rfl
  | cons other others ih =>
      obtain ⟨first, later⟩ := List.forall_mem_cons.1 withinSeen
      obtain ⟨held, answered⟩ : ∃ held, other.same name = .ok held := exists_holds .eq first within
      rw [isAmong, answered, ih later]
      have decided : decide (Equal other name) = held := by simp [Equal, answered]
      rw [List.any_cons, decided]
      cases held <;> rfl

/-- Names that hash otherwise need not be looked at. -/
theorem isAmong_of_hash (name : PkgName) (seen : List PkgName) :
    name.isAmong (seen.filter fun other => hash other == hash name) = name.isAmong seen := by
  induction seen with
  | nil => rfl
  | cons other others ih =>
      by_cases alike : hash other = hash name
      · rw [List.filter_cons_of_pos (by simpa using alike), isAmong, isAmong, ih]
      · have apart : other.base ≠ name.base := fun base => alike (hash_eq_of_base_eq base)
        rw [List.filter_cons_of_neg (by simpa using alike), isAmong, same, holds_of_base_ne apart, ih]
        rfl

/-! ## Distinct names -/

/-- The names at the places before which no equal name stands, in order. -/
def firsts (names : List PkgName) : List PkgName :=
  (names.zipIdx.filter fun place : PkgName × Nat =>
    ∀ earlier ∈ names.take place.2, ¬ Equal earlier place.1).map Prod.fst

theorem firsts_concat (names : List PkgName) (name : PkgName) :
    firsts (names ++ [name]) =
      firsts names ++ if ∃ earlier ∈ names, Equal earlier name then [] else [name] := by
  have before : ∀ place ∈ names.zipIdx, (names ++ [name]).take place.2 = names.take place.2 := by
    rintro ⟨other, index⟩ held
    have inside := List.snd_lt_of_mem_zipIdx held
    exact List.take_append_of_le_length (by simpa using Nat.le_of_lt inside)
  rw [firsts, List.zipIdx_append, List.filter_append, List.map_append, firsts]
  congr 1
  · congr 1
    refine List.filter_congr fun place held => ?_
    rw [before place held]
  · by_cases known : ∃ earlier ∈ names, Equal earlier name <;> simp_all

theorem distinctFrom_append (seen names more : List PkgName) :
    distinctFrom seen (names ++ more) =
      match distinctFrom seen names with
      | .error fault => .error fault
      | .ok kept => (distinctFrom (seen ++ kept) more).map (kept ++ ·) := by
  induction names generalizing seen with
  | nil =>
      simp only [List.nil_append, distinctFrom, List.append_nil]
      cases distinctFrom seen more <;> rfl
  | cons name names ih =>
      rw [List.cons_append, distinctFrom, distinctFrom, ih, ih]
      cases name.isAmong seen with
      | error fault => rfl
      | ok known =>
          cases known with
          | true => rfl
          | false =>
              cases distinctFrom (seen ++ [name]) names with
              | error fault => rfl
              | ok kept =>
                  simp only [bind, Except.bind, pure, Except.pure, Bool.false_eq_true, if_false,
                    List.append_assoc, List.singleton_append]
                  cases distinctFrom (seen ++ name :: kept) more <;> rfl

/-- The kept names are the first ones of their classes, in order; each class has one. -/
structure Represents (names kept : List PkgName) : Prop where
  inOrder : kept = firsts names
  complete : ∀ name ∈ names, ∃ first ∈ kept, Equal first name
  apart : kept.Pairwise fun a b => ¬ Equal a b

theorem mem_of_mem_firsts (held : name ∈ firsts names) : name ∈ names := by
  obtain ⟨place, inside, rfl⟩ := List.mem_map.1 held
  exact List.fst_mem_of_mem_zipIdx (List.mem_filter.1 inside).1

/-- One more name is kept if none of those before it equals it. -/
theorem Represents.concat {kept : List PkgName} (represents : Represents names kept)
    (within : Decimal.Within name.version) :
    Represents (names ++ [name])
      (kept ++ if ∃ earlier ∈ kept, Equal earlier name then [] else [name]) := by
  obtain ⟨rfl, complete, apart⟩ := represents
  have known_iff : (∃ earlier ∈ firsts names, Equal earlier name) ↔
      ∃ earlier ∈ names, Equal earlier name := by
    constructor
    · rintro ⟨earlier, held, equal⟩
      exact ⟨earlier, mem_of_mem_firsts held, equal⟩
    · rintro ⟨earlier, held, equal⟩
      obtain ⟨first, kept, same⟩ := complete earlier held
      exact ⟨first, kept, same.trans equal⟩
  refine ⟨by rw [firsts_concat]; simp only [known_iff], ?_, ?_⟩
  · intro other held
    rcases List.mem_append.1 held with inside | last
    · obtain ⟨first, kept, equal⟩ := complete other inside
      exact ⟨first, List.mem_append_left _ kept, equal⟩
    · rw [List.mem_singleton.1 last]
      by_cases known : ∃ earlier ∈ firsts names, Equal earlier name
      · obtain ⟨first, kept, equal⟩ := known
        exact ⟨first, List.mem_append_left _ kept, equal⟩
      · exact ⟨name, by simp [known], equal_self within⟩
  · split
    · simpa using apart
    · next unknown =>
        refine List.pairwise_append.2 ⟨apart, List.pairwise_singleton _ _, ?_⟩
        intro first kept other last equal
        exact unknown ⟨first, kept, List.mem_singleton.1 last ▸ equal⟩

theorem exists_distinct (within : ∀ name ∈ names, Decimal.Within name.version) :
    ∃ kept, distinct names = .ok kept ∧ Represents names kept := by
  induction names using List.reverseRecOn with
  | nil => exact ⟨[], rfl, rfl, by simp, List.Pairwise.nil⟩
  | append_singleton names name ih =>
      obtain ⟨before, last⟩ := List.forall_mem_append.1 within
      have withinLast := last name (List.mem_singleton_self name)
      obtain ⟨kept, found, represents⟩ := ih before
      refine ⟨_, ?_, represents.concat withinLast⟩
      have withinKept : ∀ other ∈ kept, Decimal.Within other.version := by
        intro other held
        rw [represents.inOrder] at held
        exact before other (mem_of_mem_firsts held)
      rw [distinct] at found
      rw [distinct, distinctFrom_append, found]
      simp only [List.nil_append, distinctFrom, isAmong_eq withinLast withinKept]
      by_cases known : ∃ earlier ∈ kept, Equal earlier name
      · simp [known, Except.map, bind, Except.bind]
      · simp [known, Except.map, bind, Except.bind, pure, Except.pure]

/-- **Names are equal by classes and ordered within their bases, and the distinct ones are the
first of each class.** -/
theorem names_compare_and_first_ones_are_kept :
    (∀ (operator : Operator) (a b : PkgName), a.holdsOf operator (.pkgName b) = holds operator a b) ∧
    Equivalence (fun a b : {name : PkgName // Decimal.Within name.version} => Equal a.1 b.1) ∧
    (∀ a b : PkgName, Equal a b → a.base = b.base ∧ hash a = hash b) ∧
    (∀ a b : PkgName, Decimal.Within a.version → Decimal.Within b.version →
      a.base = b.base → Comparable a b) ∧
    (∀ a b : PkgName, a.base ≠ b.base →
      ∀ operator ∈ [Operator.lt, .le, .gt, .ge, .eq], holds operator a b = .ok false) ∧
    (∀ names : List PkgName, (∀ name ∈ names, Decimal.Within name.version) →
      ∃ kept, distinct names = .ok kept ∧ Represents names kept) ∧
    (∀ (name : PkgName) (seen : List PkgName),
      name.isAmong (seen.filter fun other => hash other == hash name) = name.isAmong seen) := by
  refine ⟨fun operator a b => rfl, ⟨fun a => equal_self a.2, Equal.symm, Equal.trans⟩, ?_, ?_, ?_, ?_,
    isAmong_of_hash⟩
  · intro a b equal
    obtain ⟨base, -⟩ := equal_iff.1 equal
    exact ⟨base, hash_eq_of_base_eq base⟩
  · intro a b left right alike
    exact comparable_of_base_eq alike left right
  · intro a b apart operator _
    exact holds_of_base_ne apart operator
  · intro names within
    exact exists_distinct within

/-- `a-1` equals `a-1.0`, although only one of them is older than `a-1a`. -/
theorem distinct_of_various_spellings :
    let one : PkgName := ⟨['a'], ['1'], by decide⟩
    let oneZero : PkgName := ⟨['a'], ['1', '.', '0'], by decide⟩
    let oneLetter : PkgName := ⟨['a'], ['1', 'a'], by decide⟩
    let other : PkgName := ⟨['b'], ['1'], by decide⟩
    let names := [one, oneLetter, oneZero, other, one]
    (∀ name ∈ names, Decimal.Within name.version) ∧
      Equal one oneZero ∧ one.base = oneZero.base ∧ hash one = hash oneZero ∧
      holds .lt one oneLetter = .ok true ∧ holds .gt oneZero oneLetter = .ok true ∧
      one.base = oneLetter.base ∧ Comparable one oneLetter ∧
      one.base ≠ other.base ∧ holds .le one other = .ok false ∧
      distinct names = .ok [one, oneLetter, other] ∧
      ∃ kept, distinct names = .ok kept ∧ Represents names kept := by
  intro one oneZero oneLetter other names
  have within : ∀ name ∈ names, Decimal.Within name.version := by
    intro name held
    apply Decimal.within_of_length_le
    revert name
    decide
  have equal : Equal one oneZero := by decide
  obtain ⟨-, -, refines, comparable, apart, kept, -⟩ := names_compare_and_first_ones_are_kept
  exact ⟨within, equal, (refines one oneZero equal).1, (refines one oneZero equal).2, rfl, rfl, rfl,
    comparable one oneLetter (within one (by simp [names])) (within oneLetter (by simp [names])) rfl,
    by decide, apart one other (by decide) .le (by decide), rfl, kept names within⟩

end PkgName

end Pkgsrc
