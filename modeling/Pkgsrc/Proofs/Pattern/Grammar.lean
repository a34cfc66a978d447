/-
# Pkgsrc.Proofs.Pattern.Grammar -- patterns without braces

A pattern without braces is a base with one comparison or two, a glob or an exact name.
`Leaf.Spelled` is its grammar: it says how the parts of a leaf stand one behind the other in the
text and where an operator must not occur, and does not mention a scan.  The grammar gives a text
at most one leaf.  It is the one that the text is read as (`spelled_iff_readFrom`), and a text for
which it has none is malformed (`parse_decides_grammar`).
-/
import Pkgsrc.Proofs.Pattern.Cutting
import Pkgsrc.Proofs.Pattern.Expansion

namespace Pkgsrc

set_option autoImplicit false

/-- The version can stand behind the operator: it is not empty, holds no operator and does not
make the operator longer. -/
structure Operator.Takes (operator : Operator) (version : Text) : Prop where
  nonempty : version ≠ []
  free : ¬ OccursIn version
  complete : operator.Complete version

/-- The text holds a character that makes it a glob. -/
def Leaf.Wild (text : Text) : Prop :=
  '*' ∈ text ∨ '?' ∈ text ∨ '[' ∈ text

/-- The leaf that a text without braces spells out. -/
inductive Leaf.Spelled (raw : Text) : Leaf → Prop where
  | exact (free : ¬ Operator.OccursIn raw) (tame : ¬ Wild raw) : Spelled raw (.exact raw)
  | glob (tokens : List Glob.Token) (read : Glob.readTokens raw = .ok tokens)
      (free : ¬ Operator.OccursIn raw) (wild : Wild raw) :
      Spelled raw (.glob ⟨raw, tokens, read⟩)
  | relation (base : Text) (operator : Operator) (version : Text)
      (written : raw = base ++ (operator.text ++ version)) (named : base ≠ [])
      (clear : Operator.Clear base (operator.text ++ version)) (takes : operator.Takes version) :
      Spelled raw (.relation ⟨base, operator, version⟩)
  | range (base : Text) (lower upper : Operator) (least most : Text)
      (written : raw = base ++ (lower.text ++ (least ++ (upper.text ++ most)))) (named : base ≠ [])
      (clear : Operator.Clear base (lower.text ++ (least ++ (upper.text ++ most))))
      (takesLeast : lower.Takes least) (takesMost : upper.Takes most)
      (isLower : lower = .gt ∨ lower = .ge) (isUpper : upper = .lt ∨ upper = .le) :
      Spelled raw (.range base ⟨base, lower, least⟩ ⟨base, upper, most⟩)

namespace Leaf

theorem wild_iff {text : Text} : Wild text ↔ text.any Pattern.isWildcard = true := by
  simp only [Wild, Pattern.isWildcard, List.any_eq_true, Bool.or_eq_true, beq_iff_eq]
  constructor
  · rintro (held | held | held)
    · exact ⟨'*', held, by simp⟩
    · exact ⟨'?', held, by simp⟩
    · exact ⟨'[', held, by simp⟩
  · rintro ⟨c, held, (rfl | rfl) | rfl⟩
    · exact Or.inl held
    · exact Or.inr (Or.inl held)
    · exact Or.inr (Or.inr held)

/-- The grammar says how a text is read. -/
theorem spelled_iff_readFrom {raw : Text} {leaf : Leaf} : leaf.Spelled raw ↔ leaf.ReadFrom raw := by
  constructor
  · intro spelled
    cases spelled with
    | exact free tame =>
        rw [wild_iff, Bool.not_eq_true] at tame
        exact .exact (Cuts.bounds_read_eq_nil_iff.2 free) tame
    | glob tokens read free wild =>
        exact .glob _ (Cuts.bounds_read_eq_nil_iff.2 free) (wild_iff.1 wild)
          (Glob.compile_of_readTokens read)
    | relation base operator version written named clear takes =>
        have cut := Cuts.read_eq_single_iff.2 ⟨written, clear, takes.complete, takes.free⟩
        exact .relation base operator version cut named takes.nonempty
    | range base lower upper least most written named clear takesLeast takesMost isLower isUpper =>
        have isUpper := Operator.isUpper_iff.2 isUpper
        have cut := (Cuts.read_eq_pair_iff isUpper takesLeast.nonempty).2
          ⟨written, clear, ⟨takesLeast.complete, takesLeast.free⟩, takesMost.complete, takesMost.free⟩
        exact .range base (lower, least) (upper, most) cut named takesLeast.nonempty
          takesMost.nonempty (Operator.isLower_iff.2 isLower) isUpper
  · intro read
    cases read with
    | exact uncut tame =>
        exact .exact (Cuts.bounds_read_eq_nil_iff.1 uncut) (by simp [wild_iff, tame])
    | glob compiled uncut wild compiles =>
        obtain rfl := Glob.text_of_compile compiles
        exact .glob compiled.tokens compiled.compiled (Cuts.bounds_read_eq_nil_iff.1 uncut)
          (wild_iff.2 wild)
    | relation base operator version cut named versioned =>
        obtain ⟨written, clear, complete, free⟩ := Cuts.read_eq_single_iff.1 cut
        exact .relation base operator version written named clear ⟨versioned, free, complete⟩
    | range base lower upper cut named lowerVersioned upperVersioned isLower isUpper =>
        obtain ⟨written, clear, ⟨completeLower, freeLower⟩, completeUpper, freeUpper⟩ :=
          (Cuts.read_eq_pair_iff isUpper lowerVersioned).1 cut
        exact .range base lower.1 upper.1 lower.2 upper.2 written named clear
          ⟨lowerVersioned, freeLower, completeLower⟩ ⟨upperVersioned, freeUpper, completeUpper⟩
          (Operator.isLower_iff.1 isLower) (Operator.isUpper_iff.1 isUpper)

end Leaf

namespace Pattern

/-- A text without braces is read as a leaf, which the grammar gives it. -/
theorem parse_eq_ok_iff_spelled {raw : Text} (bare : '{' ∉ raw ∧ '}' ∉ raw) {pattern : Pattern} :
    parse raw = .ok pattern ↔ ∃ leaf, pattern = .leaf leaf ∧ leaf.Spelled raw := by
  rw [parse_of_no_braces bare, map_eq_ok_iff]
  simp only [parsePlain_eq_ok_iff, ← Leaf.spelled_iff_readFrom]
  constructor
  · rintro ⟨leaf, spelled, rfl⟩
    exact ⟨leaf, rfl, spelled⟩
  · rintro ⟨leaf, rfl, spelled⟩
    exact ⟨leaf, spelled, rfl⟩

/-- **Reading decides the grammar of patterns without braces.**  A pattern is returned exactly
when the grammar has it, the grammar has at most one pattern for a text, and where it has none
there is a fault. -/
theorem parse_decides_grammar (raw : Text) (bare : '{' ∉ raw ∧ '}' ∉ raw) :
    (∀ pattern, parse raw = .ok pattern ↔ ∃ leaf, pattern = .leaf leaf ∧ leaf.Spelled raw) ∧
      (∀ leaf other : Leaf, leaf.Spelled raw → other.Spelled raw → other = leaf) ∧
      ((∃ fault, parse raw = .error fault) ↔ ¬ ∃ leaf : Leaf, leaf.Spelled raw) := by
  refine ⟨fun pattern => parse_eq_ok_iff_spelled bare, ?_, ?_⟩
  · intro leaf other spelled otherSpelled
    have read := (parse_eq_ok_iff_spelled bare).2 ⟨leaf, rfl, spelled⟩
    have readOther := (parse_eq_ok_iff_spelled bare).2 ⟨other, rfl, otherSpelled⟩
    cases read.symm.trans readOther
    rfl
  · constructor
    · rintro ⟨fault, stuck⟩ ⟨leaf, spelled⟩
      rw [(parse_eq_ok_iff_spelled bare).2 ⟨leaf, rfl, spelled⟩] at stuck
      cases stuck
    · intro none
      cases read : parse raw with
      | error fault => exact ⟨fault, rfl⟩
      | ok pattern =>
          obtain ⟨leaf, -, spelled⟩ := (parse_eq_ok_iff_spelled bare).1 read
          exact absurd ⟨leaf, spelled⟩ none

/-- `a===1`, where an operator starts twice, `a>==1<2`, where `=` is a part of a version, and
`a<1>2`, whose bounds are in the wrong order. -/
theorem parse_of_overlapping_and_disordered :
    (('{' ∉ ['a', '=', '=', '=', '1'] ∧ '}' ∉ ['a', '=', '=', '=', '1']) ∧
      parse ['a', '=', '=', '=', '1'] = .ok (.leaf (.relation ⟨['a'], .eq, ['=', '1']⟩)) ∧
      ¬ Leaf.Spelled ['a', '=', '=', '=', '1'] (.relation ⟨['a', '='], .eq, ['1']⟩)) ∧
    (('{' ∉ ['a', '>', '=', '=', '1', '<', '2'] ∧ '}' ∉ ['a', '>', '=', '=', '1', '<', '2']) ∧
      parse ['a', '>', '=', '=', '1', '<', '2'] =
        .ok (.leaf (.range ['a'] ⟨['a'], .ge, ['=', '1']⟩ ⟨['a'], .lt, ['2']⟩))) ∧
    (('{' ∉ ['a', '<', '1', '>', '2'] ∧ '}' ∉ ['a', '<', '1', '>', '2']) ∧
      ¬ ∃ leaf : Leaf, leaf.Spelled ['a', '<', '1', '>', '2']) := by
  refine ⟨?_, ?_, ?_⟩
  · have bare : '{' ∉ ['a', '=', '=', '=', '1'] ∧ '}' ∉ ['a', '=', '=', '=', '1'] := by decide
    obtain ⟨decides, unique, -⟩ := parse_decides_grammar ['a', '=', '=', '=', '1'] bare
    have spelled : Leaf.Spelled ['a', '=', '=', '=', '1'] (.relation ⟨['a'], .eq, ['=', '1']⟩) :=
      .relation ['a'] .eq ['=', '1'] rfl (by decide) (by decide) ⟨by decide, by decide, by decide⟩
    refine ⟨bare, (decides _).2 ⟨_, rfl, spelled⟩, fun other => ?_⟩
    cases unique _ _ spelled other
  · have bare : '{' ∉ ['a', '>', '=', '=', '1', '<', '2'] ∧
        '}' ∉ ['a', '>', '=', '=', '1', '<', '2'] := by decide
    have spelled : Leaf.Spelled ['a', '>', '=', '=', '1', '<', '2']
        (.range ['a'] ⟨['a'], .ge, ['=', '1']⟩ ⟨['a'], .lt, ['2']⟩) :=
      .range ['a'] .ge .lt ['=', '1'] ['2'] rfl (by decide) (by decide)
        ⟨by decide, by decide, by decide⟩ ⟨by decide, by decide, by decide⟩ (Or.inr rfl) (Or.inl rfl)
    exact ⟨bare, ((parse_decides_grammar _ bare).1 _).2 ⟨_, rfl, spelled⟩⟩
  · have bare : '{' ∉ ['a', '<', '1', '>', '2'] ∧ '}' ∉ ['a', '<', '1', '>', '2'] := by decide
    refine ⟨bare, (parse_decides_grammar _ bare).2.2.1 ?_⟩
    rw [parse_of_no_braces bare]
    exact ⟨_, rfl⟩

end Pattern

end Pkgsrc
