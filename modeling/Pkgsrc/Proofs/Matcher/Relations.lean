/-
# Pkgsrc.Proofs.Matcher.Relations -- relations that are written out

A relation is written as a base, an operator and a bound.  If no operator and no brace occurs in
the base and the bound, the text is read as that relation again (`parse_text_relation`), and a
matcher answers for a name of the base as the versions compare (`admits_eq_ok_iff`).

* Relations order versions as names of one base are ordered (`relations_agree_with_names`).
* A version that is newer than one that satisfies a lower bound satisfies it too, but for the
  circles of the order (`upgrade_admitted_unless_round`).
-/
import Pkgsrc.Operand
import Pkgsrc.Proofs.Matcher.Answer
import Pkgsrc.Proofs.Pattern.Grammar
import Pkgsrc.Proofs.Version.Circles

namespace Pkgsrc

set_option autoImplicit false

/-! ## Texts without operators and braces -/

/-- No character of an operator and no brace occurs in the text. -/
def Pattern.Unmarked (text : Text) : Prop :=
  ∀ c ∈ text, c ∉ ['<', '>', '=', '!', '{', '}']

instance (text : Text) : Decidable (Pattern.Unmarked text) :=
  List.decidableBAll (fun c => c ∉ ['<', '>', '=', '!', '{', '}']) text

/-- A version that can stand behind an operator as well as behind the hyphen of a name, and be
compared. -/
structure Version.Plain (version : Text) : Prop where
  nonempty : version ≠ []
  noHyphen : '-' ∉ version
  unmarked : Pattern.Unmarked version
  within : Decimal.Within version

namespace Operator

theorem mem_of_starts {c : Char} {rest : Text} (start : Starts (c :: rest)) :
    c ∈ ['<', '>', '=', '!', '{', '}'] := by
  obtain ⟨operator, more, shape⟩ := start
  cases operator <;> obtain ⟨rfl, -⟩ := List.cons.inj shape <;> decide

theorem clear_of_unmarked {base : Text} (unmarked : Pattern.Unmarked base) (after : Text) :
    Clear base after := by
  induction base with
  | nil => exact clear_nil after
  | cons c base ih =>
      obtain ⟨first, others⟩ := List.forall_mem_cons.1 unmarked
      exact clear_cons_iff.2 ⟨fun start => first (mem_of_starts start), ih others⟩

theorem not_occursIn_of_unmarked {text : Text} (unmarked : Pattern.Unmarked text) :
    ¬ OccursIn text :=
  (@clear_iff_of_head?_ne text [] (by simp)).1 (clear_of_unmarked unmarked [])

theorem complete_of_unmarked (operator : Operator) {after : Text}
    (unmarked : Pattern.Unmarked after) : operator.Complete after := by
  rintro - next
  exact unmarked '=' (List.mem_of_mem_head? next) (by decide)

theorem noBrace_text (operator : Operator) : '{' ∉ operator.text ∧ '}' ∉ operator.text := by
  cases operator <;> decide

/-! ## Operators from the other side -/

/-- The operator that holds the other way round. -/
def mirrored : Operator → Operator
  | .lt => .gt
  | .le => .ge
  | .gt => .lt
  | .ge => .le
  | .eq => .eq
  | .ne => .ne

/-- The operator that holds when this one does not. -/
def negated : Operator → Operator
  | .lt => .ge
  | .le => .gt
  | .gt => .le
  | .ge => .lt
  | .eq => .ne
  | .ne => .eq

theorem holds_mirrored (operator : Operator) (order : Ordering) :
    operator.mirrored.holds order.swap = operator.holds order := by
  cases operator <;> cases order <;> rfl

theorem holds_negated (operator : Operator) (order : Ordering) :
    operator.negated.holds order = !operator.holds order := by
  cases operator <;> cases order <;> rfl

/-- Of less, equal and greater just one holds. -/
theorem existsUnique_holds (order : Ordering) :
    ∃! operator, operator ∈ [lt, eq, gt] ∧ operator.holds order = true := by
  cases order with
  | lt => exact ⟨.lt, by decide, by rintro (_ | _) <;> decide⟩
  | eq => exact ⟨.eq, by decide, by rintro (_ | _) <;> decide⟩
  | gt => exact ⟨.gt, by decide, by rintro (_ | _) <;> decide⟩

end Operator

/-! ## Reading a relation -/

namespace Relation

variable (relation : Relation) (baseUnmarked : Pattern.Unmarked relation.base)
  (boundUnmarked : Pattern.Unmarked relation.version)
include baseUnmarked boundUnmarked

theorem noBrace_text : '{' ∉ relation.text ∧ '}' ∉ relation.text := by
  obtain ⟨noOpening, noClosing⟩ := relation.operator.noBrace_text
  simp only [text, bound, List.mem_append, not_or]
  exact ⟨⟨fun held => baseUnmarked _ held (by decide), noOpening,
      fun held => boundUnmarked _ held (by decide)⟩,
    fun held => baseUnmarked _ held (by decide), noClosing,
      fun held => boundUnmarked _ held (by decide)⟩

theorem cuts_text :
    Cuts.read relation.text = ⟨relation.base, [(relation.operator, relation.version)]⟩ :=
  Cuts.read_eq_single_iff.2 ⟨rfl, Operator.clear_of_unmarked baseUnmarked _,
    relation.operator.complete_of_unmarked boundUnmarked,
    Operator.not_occursIn_of_unmarked boundUnmarked⟩

variable (named : relation.base ≠ [])
include named

theorem parse_text_relation (bounded : relation.version ≠ []) :
    Pattern.parse relation.text = .ok (.leaf (.relation relation)) :=
  Pattern.parse_eq_ok_leaf_iff.2 ⟨relation.noBrace_text baseUnmarked boundUnmarked,
    .relation _ _ _ (relation.cuts_text baseUnmarked boundUnmarked) named bounded⟩

/-- A relation without a bound is malformed. -/
theorem bounded_of_parse {pattern : Pattern} (read : Pattern.parse relation.text = .ok pattern) :
    relation.version ≠ [] := by
  intro unbounded
  rw [Pattern.parse_of_no_braces (relation.noBrace_text baseUnmarked boundUnmarked), Pattern.parsePlain,
    relation.cuts_text baseUnmarked boundUnmarked] at read
  simp [Pattern.ofCuts, named, Pattern.checkVersion, unbounded, bind, Except.bind,
    Except.map] at read

end Relation

/-! ## Answers -/

namespace Matcher

/-- What a matcher answers for a relation and the name of a version, both of one base. -/
def admits (matcher : Matcher) (base : Text) (operator : Operator) (bound version : Text) :
    Except Matching.Fault Bool :=
  ((accepts (Relation.text ⟨base, operator, bound⟩) (base ++ '-' :: version)).run matcher).1

theorem answer_relation (relation : Relation) (named : relation.base ≠ [])
    (baseUnmarked : Pattern.Unmarked relation.base)
    (boundUnmarked : Pattern.Unmarked relation.version) (bounded : relation.version ≠ [])
    (candidate : Text) :
    answer relation.text candidate =
      lenient (Matching.byVersion relation.base relation.holds candidate) := by
  rw [answer_of_parse (relation.parse_text_relation baseUnmarked boundUnmarked named bounded),
    Pattern.accepts_leaf, Leaf.accepts_relation]

section Admits

variable {matcher : Matcher} {base bound version : Text} {operator : Operator}

/-- The name of a version is read as its base and the version. -/
theorem ofText?_append_cons (base : Text) {version : Text} (noHyphen : '-' ∉ version) :
    PkgName.ofText? (base ++ '-' :: version) = some ⟨base, version, noHyphen⟩ :=
  PkgName.ofText?_eq_some_iff.2 rfl

variable (named : base ≠ []) (baseUnmarked : Pattern.Unmarked base)
  (boundUnmarked : Pattern.Unmarked bound) (noHyphen : '-' ∉ version)
include named baseUnmarked boundUnmarked noHyphen

theorem admits_of_order (bounded : bound ≠ []) {result : Ordering}
    (compared : Version.order version bound = .ok result) :
    matcher.admits base operator bound version = .ok (operator.holds result) := by
  rw [admits, run_accepts,
    answer_relation ⟨base, operator, bound⟩ named baseUnmarked boundUnmarked bounded,
    Matching.byVersion_of_eq (ofText?_append_cons base noHyphen) rfl, Relation.holds, compared]
  rfl

/-- A version is admitted only if it compares with the bound as the operator asks. -/
theorem exists_order_of_admits (admitted : matcher.admits base operator bound version = .ok true) :
    bound ≠ [] ∧ ∃ result, Version.order version bound = .ok result ∧
      operator.holds result = true := by
  have bounded : bound ≠ [] := by
    rw [admits, run_accepts] at admitted
    cases read : Pattern.parse (Relation.text ⟨base, operator, bound⟩) with
    | error fault =>
        rw [answer, read] at admitted
        cases admitted
    | ok pattern =>
        exact Relation.bounded_of_parse ⟨base, operator, bound⟩ baseUnmarked boundUnmarked named read
  refine ⟨bounded, ?_⟩
  cases compared : Version.order version bound with
  | ok result =>
      rw [admits_of_order named baseUnmarked boundUnmarked noHyphen bounded compared] at admitted
      exact ⟨result, rfl, Except.ok.inj admitted⟩
  | error fault =>
      rw [admits, run_accepts,
        answer_relation ⟨base, operator, bound⟩ named baseUnmarked boundUnmarked bounded,
        Matching.byVersion_of_eq (ofText?_append_cons base noHyphen) rfl, Relation.holds,
        compared] at admitted
      cases admitted

end Admits

theorem admits_of_plain {matcher : Matcher} {base bound version : Text} (operator : Operator)
    (named : base ≠ []) (baseUnmarked : Pattern.Unmarked base) (plainBound : Version.Plain bound)
    (plain : Version.Plain version) {result : Ordering}
    (compared : Version.order version bound = .ok result) :
    matcher.admits base operator bound version = .ok (operator.holds result) :=
  admits_of_order named baseUnmarked plainBound.unmarked plain.noHyphen plainBound.nonempty compared

/-- No relation admits a candidate of another base, or one without a hyphen. -/
theorem accepts_relation_of_other_base (relation : Relation) (named : relation.base ≠ [])
    (baseUnmarked : Pattern.Unmarked relation.base)
    (boundUnmarked : Pattern.Unmarked relation.version) (bounded : relation.version ≠ [])
    {candidate : Text}
    (other : ∀ name, PkgName.ofText? candidate = some name → name.base ≠ relation.base)
    (matcher : Matcher) : ((accepts relation.text candidate).run matcher).1 = .ok false := by
  rw [run_accepts, answer_relation relation named baseUnmarked boundUnmarked bounded]
  cases read : PkgName.ofText? candidate with
  | none =>
      rw [Matching.byVersion_of_unnamed read]
      rfl
  | some name =>
      rw [Matching.byVersion_of_ne read (other name read)]
      rfl

/-! ## Relations and names -/

theorem holdsOf_of_order {base a b : Text} (noHyphenA : '-' ∉ a) (noHyphenB : '-' ∉ b)
    (operator : Operator) {result : Ordering} (compared : Version.order b a = .ok result) :
    (PkgName.mk base b noHyphenB).holdsOf operator (.pkgName ⟨base, a, noHyphenA⟩) =
      .ok (operator.holds result) := by
  simp [PkgName.holdsOf, Operand.asName?, Operand.baseVersion?, PkgName.orderAgainst, compared,
    Except.map]

section Names

variable {base a b : Text}

/-- **Relations order versions as names of one base are ordered.**  A relation admits a version
exactly when the comparison holds of the two names, and when the mirrored relation with bound and
version exchanged admits the other one.  Of less, equal and greater just one admits the version, a
negated operator gives the opposite answer, and no relation accepts a candidate of another base
or without a hyphen. -/
theorem relations_agree_with_names (matcher : Matcher) (named : base ≠ [])
    (baseUnmarked : Pattern.Unmarked base) (plainA : Version.Plain a) (plainB : Version.Plain b) :
    (∃ nameA nameB, PkgName.ofText? (base ++ '-' :: a) = some nameA ∧
      PkgName.ofText? (base ++ '-' :: b) = some nameB ∧
      ∀ operator, operator ≠ .ne → ∃ held,
        matcher.admits base operator a b = .ok held ∧
        nameB.holdsOf operator (.pkgName nameA) = .ok held ∧
        matcher.admits base operator.mirrored b a = .ok held) ∧
    (∃! operator, operator ∈ [Operator.lt, .eq, .gt] ∧
      matcher.admits base operator a b = .ok true) ∧
    (∀ operator held, matcher.admits base operator a b = .ok held ↔
      matcher.admits base operator.negated a b = .ok !held) ∧
    (∀ candidate, (∀ name, PkgName.ofText? candidate = some name → name.base ≠ base) →
      ∀ operator,
        ((accepts (Relation.text ⟨base, operator, a⟩) candidate).run matcher).1 = .ok false) := by
  obtain ⟨result, compared⟩ := Version.exists_order_of_within plainB.within plainA.within
  have mirrored : Version.order a b = .ok result.swap := by
    rw [Version.order_swap, compared]
    rfl
  have admitted (operator : Operator) :
      matcher.admits base operator a b = .ok (operator.holds result) :=
    admits_of_plain operator named baseUnmarked plainA plainB compared
  refine ⟨⟨_, _, ofText?_append_cons base plainA.noHyphen,
    ofText?_append_cons base plainB.noHyphen, ?_⟩, ?_, ?_, ?_⟩
  · intro operator _
    refine ⟨operator.holds result, admitted operator, holdsOf_of_order _ _ operator compared, ?_⟩
    rw [← operator.holds_mirrored result]
    exact admits_of_plain operator.mirrored named baseUnmarked plainB plainA mirrored
  · simp only [admitted, Except.ok.injEq]
    exact Operator.existsUnique_holds result
  · intro operator held
    rw [admitted, admitted, operator.holds_negated, Except.ok.injEq, Except.ok.injEq,
      Bool.not_inj_iff]
  · intro candidate other operator
    exact accepts_relation_of_other_base ⟨base, operator, a⟩ named baseUnmarked plainA.unmarked
      plainA.nonempty other matcher

end Names

theorem plain_one : Version.Plain ['1'] :=
  ⟨by decide, by decide, by decide, Decimal.within_of_length_le (by decide)⟩

theorem plain_oneA : Version.Plain ['1', 'a'] :=
  ⟨by decide, by decide, by decide, Decimal.within_of_length_le (by decide)⟩

theorem plain_oneZero : Version.Plain ['1', '.', '0'] :=
  ⟨by decide, by decide, by decide, Decimal.within_of_length_le (by decide)⟩

/-- `a-b>=1.0` and the other relations with this bound, beside `a-b-1a` and `c-1`. -/
theorem relations_of_zero_and_letter :
    Version.Plain ['1', '.', '0'] ∧ Version.Plain ['1', 'a'] ∧
      Pattern.Unmarked ['a', '-', 'b'] ∧
      (∃! operator, operator ∈ [Operator.lt, .eq, .gt] ∧
        forgetful.admits ['a', '-', 'b'] operator ['1', '.', '0'] ['1', 'a'] = .ok true) ∧
      ((accepts (Relation.text ⟨['a', '-', 'b'], .ge, ['1', '.', '0']⟩) ['c', '-', '1']).run
        forgetful).1 = .ok false := by
  have unmarked : Pattern.Unmarked ['a', '-', 'b'] := by decide
  obtain ⟨-, unique, -, others⟩ :=
    relations_agree_with_names forgetful (by decide) unmarked plain_oneZero plain_oneA
  refine ⟨plain_oneZero, plain_oneA, unmarked, unique, others ['c', '-', '1'] ?_ .ge⟩
  intro name read same
  have named : PkgName.ofText? ['c', '-', '1'] = some _ :=
    ofText?_append_cons ['c'] plain_one.noHyphen
  cases named.symm.trans read
  cases same

/-! ## Upgrades -/

section Upgrade

variable {base bound version upgrade : Text}

/-- **A newer version satisfies the lower bounds that an older one satisfies, unless they go
round.**  Behind `>=` it is refused exactly when the older version, the newer one and the bound go
round, and behind `>` exactly when the bound, the older version and the newer one do. -/
theorem upgrade_admitted_unless_round (matcher : Matcher) (named : base ≠ [])
    (baseUnmarked : Pattern.Unmarked base) (boundUnmarked : Pattern.Unmarked bound)
    (plain : Version.Plain version) (plainUpgrade : Version.Plain upgrade)
    (newer : Version.Newer upgrade version) :
    (matcher.admits base .ge bound version = .ok true →
      ∃ held, matcher.admits base .ge bound upgrade = .ok held ∧
        (held = true ↔ ¬ Version.GoesRound version upgrade bound)) ∧
    (matcher.admits base .gt bound version = .ok true →
      ∃ held, matcher.admits base .gt bound upgrade = .ok held ∧
        (held = true ↔ ¬ Version.GoesRound bound version upgrade)) := by
  have bounds {operator : Operator}
      (admitted : matcher.admits base operator bound version = .ok true) :
      ∃ before after, Version.order version bound = .ok before ∧ operator.holds before = true ∧
        Version.order upgrade bound = .ok after ∧
        matcher.admits base operator bound upgrade = .ok (operator.holds after) := by
    obtain ⟨bounded, before, known, satisfied⟩ :=
      exists_order_of_admits named baseUnmarked boundUnmarked plain.noHyphen admitted
    have withinBound := (Version.within_of_order known).2
    obtain ⟨after, compared⟩ := Version.exists_order_of_within plainUpgrade.within withinBound
    exact ⟨before, after, known, satisfied, compared,
      admits_of_order named baseUnmarked boundUnmarked plainUpgrade.noHyphen bounded compared⟩
  constructor
  · intro admitted
    obtain ⟨before, after, known, satisfied, compared, answered⟩ := bounds admitted
    refine ⟨_, answered, ?_⟩
    rw [← Version.atLeast_trans_iff known (by simpa [Operator.holds] using satisfied) newer compared]
    simp [Operator.holds]
  · intro admitted
    obtain ⟨before, after, known, satisfied, compared, answered⟩ := bounds admitted
    obtain rfl : before = .gt := by simpa [Operator.holds] using satisfied
    refine ⟨_, answered, ?_⟩
    rw [← Version.newer_trans_iff known newer compared]
    simp [Operator.holds]

end Upgrade

/-- From `1a` to `1.0`, beside the bounds `1a` and `1`: only the first one is kept. -/
theorem upgrade_from_letter_to_zero :
    Version.Plain ['1', 'a'] ∧ Version.Plain ['1', '.', '0'] ∧
      Version.Newer ['1', '.', '0'] ['1', 'a'] ∧
      forgetful.admits ['b'] .ge ['1', 'a'] ['1', 'a'] = .ok true ∧
      (∃ held, forgetful.admits ['b'] .ge ['1', 'a'] ['1', '.', '0'] = .ok held ∧
        (held = true ↔ ¬ Version.GoesRound ['1', 'a'] ['1', '.', '0'] ['1', 'a'])) ∧
      forgetful.admits ['b'] .gt ['1'] ['1', 'a'] = .ok true ∧
      (∃ held, forgetful.admits ['b'] .gt ['1'] ['1', '.', '0'] = .ok held ∧
        (held = true ↔ ¬ Version.GoesRound ['1'] ['1', 'a'] ['1', '.', '0'])) := by
  have newer : Version.Newer ['1', '.', '0'] ['1', 'a'] := rfl
  have atLeast : forgetful.admits ['b'] .ge ['1', 'a'] ['1', 'a'] = .ok true :=
    @admits_of_plain _ _ _ _ .ge (by decide) (by decide) plain_oneA plain_oneA .eq rfl
  have above : forgetful.admits ['b'] .gt ['1'] ['1', 'a'] = .ok true :=
    @admits_of_plain _ _ _ _ .gt (by decide) (by decide) plain_one plain_oneA .gt rfl
  refine ⟨plain_oneA, plain_oneZero, newer, atLeast, ?_, above, ?_⟩
  · exact (upgrade_admitted_unless_round forgetful (by decide) (by decide) (by decide) plain_oneA
      plain_oneZero newer).1 atLeast
  · exact (upgrade_admitted_unless_round forgetful (by decide) (by decide) (by decide) plain_oneA
      plain_oneZero newer).2 above

/-- `b>=1.0` accepts `b-1` and refuses the newer `b-1a`, and `b>1` accepts `b-1a` and refuses the
newer `b-1.0`. -/
theorem upgrade_refused_by_lower_bound :
    Version.Plain ['1'] ∧ Version.Plain ['1', 'a'] ∧ Version.Plain ['1', '.', '0'] ∧
      (forgetful.admits ['b'] .ge ['1', '.', '0'] ['1'] = .ok true ∧
        Version.Newer ['1', 'a'] ['1'] ∧
        forgetful.admits ['b'] .ge ['1', '.', '0'] ['1', 'a'] = .ok false) ∧
      (forgetful.admits ['b'] .gt ['1'] ['1', 'a'] = .ok true ∧
        Version.Newer ['1', '.', '0'] ['1', 'a'] ∧
        forgetful.admits ['b'] .gt ['1'] ['1', '.', '0'] = .ok false) := by
  refine ⟨plain_one, plain_oneA, plain_oneZero, ⟨?_, rfl, ?_⟩, ?_, rfl, ?_⟩
  · exact @admits_of_plain _ _ _ _ .ge (by decide) (by decide) plain_oneZero plain_one .eq rfl
  · exact @admits_of_plain _ _ _ _ .ge (by decide) (by decide) plain_oneZero plain_oneA .lt rfl
  · exact @admits_of_plain _ _ _ _ .gt (by decide) (by decide) plain_one plain_oneA .gt rfl
  · exact @admits_of_plain _ _ _ _ .gt (by decide) (by decide) plain_one plain_oneZero .eq rfl

end Matcher

end Pkgsrc
