/-
# Pkgsrc.Proofs.Matcher.Prefilter -- what the first characters refuse is not accepted

A matcher compares a few first characters before it parses anything.  A plain character stands
for itself in every kind of pattern, and no group starts before it ends: it is also there in
every text that the pattern expands to (`agree_of_mem_expand`).  So where a comparison fails, no
leaf accepts the candidate (`refused_of_readFrom`), and neither does the whole pattern
(`refused_of_parse`): it refuses the candidate or finds it malformed, and never comes to a number.
-/
import Pkgsrc.Matcher
import Pkgsrc.Proofs.Glob.Literal
import Pkgsrc.Proofs.Pattern.Expansion

namespace Pkgsrc

set_option autoImplicit false

namespace Matcher

/-! ## Plain characters -/

/-- A comparison fails on a plain character: the candidate ends there, has another one, or
fails later. -/
theorem agree_cons_eq_false {count : Nat} {p : Char} {pattern candidate : Text}
    (refused : agree count (p :: pattern) candidate = false) :
    ∃ fewer, count = fewer + 1 ∧ isPlain p = true ∧
      (candidate = [] ∨ ∃ c rest, candidate = c :: rest ∧
        (p = c → agree fewer pattern rest = false)) := by
  cases count with
  | zero => simp [agree] at refused
  | succ fewer =>
      cases plain : isPlain p with
      | false => simp [agree, plain] at refused
      | true =>
          refine ⟨fewer, rfl, rfl, ?_⟩
          cases candidate with
          | nil => exact Or.inl rfl
          | cons c rest =>
              refine Or.inr ⟨c, rest, rfl, ?_⟩
              rintro rfl
              simpa [agree, plain] using refused

theorem agree_nil (count : Nat) (candidate : Text) : agree count [] candidate = true := by
  cases count <;> rfl

/-- A comparison that fails on one character and all that follow it fails with it in front. -/
theorem agree_cons_of_later {count : Nat} {p : Char} {pattern pattern' candidate : Text}
    (refused : agree count (p :: pattern) candidate = false)
    (later : ∀ fewer rest, agree fewer pattern rest = false → agree fewer pattern' rest = false) :
    agree count (p :: pattern') candidate = false := by
  obtain ⟨fewer, rfl, plain, rfl | ⟨c, rest, rfl, next⟩⟩ := agree_cons_eq_false refused
  · simp [agree, plain]
  · by_cases same : p = c
    · subst same
      simp [agree, plain, later fewer rest (next rfl)]
    · simp [agree, plain, same]

/-- The plain characters at the start of a pattern start all texts that it expands to. -/
theorem agree_of_mem_expand {tree : Braces.Sequence} {text : Text} (held : text ∈ tree.expand)
    {count : Nat} {candidate : Text} (refused : agree count tree.text candidate = false) :
    agree count text candidate = false := by
  match tree with
  | .done =>
      obtain rfl := List.mem_singleton.1 held
      exact refused
  | .char c rest =>
      obtain ⟨tail, inRest, rfl⟩ := List.mem_map.1 held
      exact agree_cons_of_later refused fun _ _ => agree_of_mem_expand inRest
  | .group choices rest =>
      obtain ⟨fewer, -, plain, -⟩ := agree_cons_eq_false refused
      cases plain

/-! ## Leaves -/

theorem agree_self (count : Nat) (text : Text) : agree count text text = true := by
  induction text generalizing count with
  | nil => exact agree_nil count []
  | cons c text ih => cases count <;> simp [agree, ih]

/-- Past the base no character of a comparison is plain. -/
theorem agree_base (count : Nat) (base : Text) (operator : Operator) (bound rest : Text) :
    agree count (base ++ (operator.text ++ bound)) (base ++ rest) = true := by
  induction base generalizing count with
  | nil => cases count <;> cases operator <;> rfl
  | cons c base ih => cases count <;> simp [agree, ih]

/-- A plain character of a glob stands for itself. -/
theorem ordinary_of_isPlain {p : Char} (plain : isPlain p = true) : Glob.Ordinary p where
  notStar := by rintro rfl; cases plain
  notAny := by rintro rfl; cases plain
  notSet := by rintro rfl; cases plain
  notEscape := by rintro rfl; cases plain

theorem not_matches_of_agree {text : Text} {tokens : List Glob.Token}
    (read : Glob.readTokens text = .ok tokens) {count : Nat} {candidate : Text}
    (refused : agree count text candidate = false) : ¬ Glob.Matches tokens candidate := by
  induction text generalizing tokens count candidate with
  | nil => simp [agree_nil] at refused
  | cons p text ih =>
      obtain ⟨fewer, -, plain, ended⟩ := agree_cons_eq_false refused
      rw [Glob.readTokens_cons_of_ordinary (ordinary_of_isPlain plain)] at read
      obtain ⟨others, inner, rfl⟩ := map_eq_ok_iff.1 read
      rcases ended with rfl | ⟨c, rest, rfl, next⟩
      · exact Glob.not_matches_single_nil
      · rw [Glob.matches_single_cons_iff]
        rintro ⟨same, restMatches⟩
        exact ih inner (next (beq_iff_eq.1 same)) restMatches

/-- The candidate is refused or found to be malformed, which is the same to a matcher. -/
def Refused (candidate : Text) (result : Except Matching.Fault Bool) : Prop :=
  result = .ok false ∨ result = .error (.malformedName candidate)

/-- A candidate is malformed or has another base when its characters differ from those of the
base. -/
theorem refused_byVersion {base : Text} {operator : Operator} {bound : Text} {count : Nat}
    {candidate : Text} (refused : agree count (base ++ (operator.text ++ bound)) candidate = false)
    (test : Text → Except NumberFault Bool) :
    Refused candidate (Matching.byVersion base test candidate) := by
  cases named : PkgName.ofText? candidate with
  | none => exact Or.inr (Matching.byVersion_of_unnamed named)
  | some name =>
      refine Or.inl (Matching.byVersion_of_ne named ?_)
      rintro rfl
      rw [← PkgName.text_of_ofText? named, PkgName.text, agree_base] at refused
      cases refused

/-- **No leaf accepts a candidate that the comparison with its text refuses.** -/
theorem refused_of_readFrom {text : Text} {leaf : Leaf} (read : leaf.ReadFrom text) {count : Nat}
    {candidate : Text} (refused : agree count text candidate = false) :
    Refused candidate (leaf.accepts candidate) := by
  have written := read.text_eq
  cases read with
  | exact uncut tame =>
      refine Or.inl (congrArg Except.ok (beq_eq_false_iff_ne.2 ?_))
      rintro rfl
      rw [agree_self] at refused
      cases refused
  | glob compiled uncut wild compiles =>
      have read := compiled.compiled
      rw [Glob.text_of_compile compiles] at read
      refine Or.inl (congrArg Except.ok (Bool.eq_false_iff.2 fun accepted => ?_))
      exact not_matches_of_agree read refused (Glob.matchTokens_eq_true_iff.1 accepted)
  | relation base operator version cut based versioned =>
      rw [← written, Leaf.text, Relation.text, Relation.bound] at refused
      rw [Leaf.accepts_relation]
      exact refused_byVersion refused _
  | range base lower upper cut based lowerVersioned upperVersioned isLower isUpper =>
      rw [← written, Leaf.text, Relation.bound, List.append_assoc, List.append_assoc] at refused
      rw [Leaf.accepts_range]
      exact refused_byVersion refused _

/-! ## Patterns -/

theorem firstLeaf_of_refused {candidate : Text} {tests : List Leaf}
    (each : ∀ leaf ∈ tests, Refused candidate (leaf.accepts candidate)) :
    Refused candidate ((Leaf.firstLeaf candidate tests).map Option.isSome) := by
  induction tests with
  | nil => exact Or.inl rfl
  | cons leaf tests ih =>
      obtain ⟨first, others⟩ := List.forall_mem_cons.1 each
      unfold Leaf.firstLeaf
      rcases first with result | result
      · rw [result]
        exact ih others
      · rw [result]
        exact Or.inr rfl

/-- **A pattern does not accept what the comparison with its first characters refuses.** -/
theorem refused_of_parse {raw candidate : Text} {pattern : Pattern}
    (read : Pattern.parse raw = .ok pattern) {count : Nat}
    (refused : agree count raw candidate = false) :
    Refused candidate (pattern.accepts candidate) := by
  obtain ⟨tree, reads⟩ := Pattern.exists_reads_of_parse read
  rw [Pattern.accepts, Pattern.firstMatch_eq_firstLeaf]
  refine firstLeaf_of_refused fun leaf held => ?_
  obtain ⟨text, inside, readFrom⟩ := Pattern.exists_readFrom_of_reads reads read held
  rw [← reads.text_eq] at refused
  exact refused_of_readFrom readFrom (agree_of_mem_expand inside refused)

end Matcher

end Pkgsrc
