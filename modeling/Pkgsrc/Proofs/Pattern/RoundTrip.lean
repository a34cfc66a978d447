/-
# Pkgsrc.Proofs.Pattern.RoundTrip -- a pattern gives back the text it was read from

A relation and a range keep no text, only a base, operators and versions; written one behind the
other they are the text again (`text_of_parse`).  So is every pattern inside: each is what its
own text is read as (`parse_text_of_within`), and that text is the one around it with an
alternative in the place of the first group (`exists_group_of_parse`).

A pattern can therefore be told by its text.  Two patterns that were read can always be compared,
and they are equal when they were read from one text (`same_iff_of_parse`).
-/
import Pkgsrc.Operand
import Pkgsrc.Proofs.Pattern.Expansion

namespace Pkgsrc

set_option autoImplicit false

/-! ## Patterns compared -/

namespace Leaf

theorem same_self (leaf : Leaf) : leaf.same leaf = true := by
  cases leaf <;> simp [same, Value.same]

/-- Leaves that were read are compared part by part. -/
theorem ReadFrom.same_eq_beq {text : Text} {leaf : Leaf} (read : leaf.ReadFrom text)
    (other : Leaf) : leaf.same other = (leaf == other) := by
  cases read <;> rfl

theorem ReadFrom.ne_blank {text : Text} {leaf : Leaf} (read : leaf.ReadFrom text) :
    leaf ≠ .blank := by
  rintro rfl
  cases read

end Leaf

namespace Pattern

open Braces

mutual

theorem same_self (pattern : Pattern) : pattern.same pattern = true := by
  match pattern with
  | .leaf test => exact test.same_self
  | .alternation text branches => simp [same, sameAll_self branches]

theorem sameAll_self (patterns : List Pattern) : sameAll patterns patterns = true := by
  match patterns with
  | [] => rfl
  | pattern :: others => simp [sameAll, pattern.same_self, sameAll_self others]

end

mutual

/-- Where the one side has no blank, a comparison does not come to two of them. -/
theorem meetBlanks_eq_false {pattern : Pattern} (full : .blank ∉ pattern.leaves)
    (other : Pattern) : pattern.meetBlanks other = false := by
  match pattern, other with
  | .leaf test, .leaf otherTest =>
      have differs : test ≠ .blank := fun blank => full (List.mem_singleton.2 blank.symm)
      simp [meetBlanks, differs]
  | .leaf _, .alternation _ _ => rfl
  | .alternation _ _, .leaf _ => rfl
  | .alternation text branches, .alternation otherText otherBranches =>
      simp [meetBlanks, anyMeetBlanks_eq_false full otherBranches]

theorem anyMeetBlanks_eq_false {patterns : List Pattern} (full : .blank ∉ leavesOfAll patterns)
    (others : List Pattern) : anyMeetBlanks patterns others = false := by
  match patterns, others with
  | [], _ => rfl
  | _ :: _, [] => rfl
  | pattern :: patterns, other :: others =>
      have parts : .blank ∉ pattern.leaves ∧ .blank ∉ leavesOfAll patterns := by
        simpa [leavesOfAll] using full
      simp [anyMeetBlanks, pattern.meetBlanks_eq_false parts.1 other,
        anyMeetBlanks_eq_false parts.2 others]

end

/-! ## Patterns read -/

/-- The text is that of the pattern. -/
theorem text_of_parse {raw : Text} {pattern : Pattern} (read : parse raw = .ok pattern) :
    pattern.text = raw := by
  cases found : Braces.firstGroup raw with
  | error fault =>
      rw [parse_of_fault found] at read
      cases read
  | ok group =>
      cases group with
      | none =>
          rw [parse_of_plain found] at read
          obtain ⟨leaf, plain, rfl⟩ := map_eq_ok_iff.1 read
          exact (parsePlain_eq_ok_iff.1 plain).text_eq
      | some group =>
          rw [parse_of_group found] at read
          obtain ⟨branches, -, rfl⟩ := map_eq_ok_iff.1 read
          rfl

/-- The branches of an alternation are read with the alternatives of the first group in its
place. -/
theorem exists_group_of_parse {raw written : Text} {branches : List Pattern}
    (read : parse raw = .ok (.alternation written branches)) :
    ∃ before choices rest, (Sequence.grouped before choices rest).Reads raw ∧
      choices.toList.mapM (fun choice => parse (before ++ choice.text ++ rest.text)) =
        .ok branches := by
  obtain ⟨tree, reads⟩ := exists_reads_of_parse read
  obtain ⟨rfl, proper, filled⟩ := reads
  rcases tree.plain_or_grouped with ⟨letters, rfl⟩ | ⟨before, choices, rest, rfl⟩
  · rw [Sequence.text_plain, parse_of_plain (firstGroup_text_of_plain proper)] at read
    obtain ⟨leaf, -, shape⟩ := map_eq_ok_iff.1 read
    cases shape
  · refine ⟨before, choices, rest, ⟨rfl, proper, filled⟩, ?_⟩
    have parts := Choices.filled_iff.1 (Sequence.filled_grouped_iff.1 filled).1
    rw [parse_text_of_group proper fun choice held => (parts choice held).1] at read
    obtain ⟨found, each, shape⟩ := map_eq_ok_iff.1 read
    cases shape
    simpa only [Sequence.text_around] using each

/-- The branches are written as the text with an alternative in the place of the first group. -/
theorem exists_texts_of_parse {raw written : Text} {branches : List Pattern}
    (read : parse raw = .ok (.alternation written branches)) :
    ∃ before choices rest, (Sequence.grouped before choices rest).Reads raw ∧
      branches.map text = choices.toList.map fun choice => before ++ choice.text ++ rest.text := by
  obtain ⟨before, choices, rest, reads, each⟩ := exists_group_of_parse read
  have texts : List.Forall₂ (fun choice branch => branch.text = before ++ choice.text ++ rest.text)
      choices.toList branches := (mapM_eq_ok_iff.1 each).imp fun _ _ found => text_of_parse found
  refine ⟨before, choices, rest, reads, ?_⟩
  rw [← List.forall₂_eq_eq_eq, List.forall₂_map_left_iff, List.forall₂_map_right_iff]
  exact texts.flip

/-! ## Patterns inside patterns -/

/-- The pattern itself, its branches, their branches and so on. -/
inductive Within (part : Pattern) : Pattern → Prop where
  | whole : Within part part
  | branch {branch : Pattern} {text : Text} {branches : List Pattern} :
      branch ∈ branches → Within part branch → Within part (.alternation text branches)

/-- Every pattern inside is what its own text is read as. -/
theorem parse_text_of_within {part pattern : Pattern} (inside : part.Within pattern) {raw : Text}
    (read : parse raw = .ok pattern) : parse part.text = .ok part := by
  induction inside generalizing raw with
  | whole => rwa [text_of_parse read]
  | branch held _ ih =>
      obtain ⟨before, choices, rest, -, each⟩ := exists_group_of_parse read
      obtain ⟨choice, -, found⟩ := exists_item_of_mapM_eq_ok each held
      exact ih found

/-! ## Patterns told apart -/

theorem blank_not_mem_leaves_of_parse {raw : Text} {pattern : Pattern}
    (read : parse raw = .ok pattern) : .blank ∉ pattern.leaves := by
  intro held
  obtain ⟨tree, reads⟩ := exists_reads_of_parse read
  obtain ⟨text, -, readFrom⟩ := exists_readFrom_of_reads reads read held
  exact readFrom.ne_blank rfl

/-- Patterns that are the same are written alike, the first of them having been read. -/
theorem text_eq_of_same {raw : Text} {pattern other : Pattern} (read : parse raw = .ok pattern)
    (alike : pattern.same other = true) : pattern.text = other.text := by
  match pattern, other with
  | .leaf test, .leaf otherTest =>
      obtain ⟨-, readFrom⟩ := parse_eq_ok_leaf_iff.1 read
      rw [same, readFrom.same_eq_beq] at alike
      rw [eq_of_beq alike]
  | .leaf _, .alternation _ _ => cases alike
  | .alternation _ _, .leaf _ => cases alike
  | .alternation text branches, .alternation otherText otherBranches =>
      rw [same, Bool.and_eq_true] at alike
      exact eq_of_beq alike.1

theorem operand_of_parse {raw : Text} {pattern : Pattern} (read : parse raw = .ok pattern) :
    Operand.ofPattern pattern = .pattern pattern := by
  match pattern with
  | .alternation _ _ => rfl
  | .leaf test =>
      obtain ⟨-, readFrom⟩ := parse_eq_ok_leaf_iff.1 read
      cases readFrom <;> rfl

/-- Patterns that were read can be compared, and are equal when their texts are. -/
theorem same_of_parse {a b : Text} {left right : Pattern} (readLeft : parse a = .ok left)
    (readRight : parse b = .ok right) :
    Operand.same (.ofPattern left) (.ofPattern right) = .ok (decide (a = b)) := by
  have apart := meetBlanks_eq_false (blank_not_mem_leaves_of_parse readLeft) right
  have same_iff : left.same right = true ↔ a = b := by
    constructor
    · intro alike
      rw [← text_of_parse readLeft, ← text_of_parse readRight]
      exact text_eq_of_same readLeft alike
    · rintro rfl
      cases readLeft.symm.trans readRight
      exact left.same_self
  have decided : left.same right = decide (a = b) := by
    rw [Bool.eq_iff_iff, decide_eq_true_iff]
    exact same_iff
  rw [operand_of_parse readLeft, operand_of_parse readRight, Operand.same, apart, decided]
  rfl

/-- **A pattern gives back the text that it was read from.**  So does every pattern inside it,
and the branches of an alternation are written as its text with the alternatives of the first
group in its place.  Two patterns are equal when they were read from one text, and only then. -/
theorem parse_recovers_text {raw : Text} {pattern : Pattern} (read : parse raw = .ok pattern) :
    pattern.text = raw ∧
    (∀ part : Pattern, part.Within pattern → parse part.text = .ok part ∧
      ∀ written branches, part = .alternation written branches →
        ∃ before choices rest, (Sequence.grouped before choices rest).Reads written ∧
          branches.map text =
            choices.toList.map fun choice => before ++ choice.text ++ rest.text) ∧
    ∀ other otherPattern, parse other = .ok otherPattern →
      Operand.same (.ofPattern pattern) (.ofPattern otherPattern) = .ok (decide (raw = other)) ∧
        (pattern = otherPattern ↔ raw = other) := by
  refine ⟨text_of_parse read, fun part inside => ?_, fun other otherPattern readOther => ?_⟩
  · have readPart := parse_text_of_within inside read
    refine ⟨readPart, ?_⟩
    rintro written branches rfl
    exact exists_texts_of_parse readPart
  · refine ⟨same_of_parse read readOther, ?_, ?_⟩
    · rintro rfl
      rw [← text_of_parse read, ← text_of_parse readOther]
    · rintro rfl
      exact Except.ok.inj (read.symm.trans readOther)

/-- What `b{c,d}>1` is read as. -/
def innerChoice : Pattern :=
  .alternation ['b', '{', 'c', ',', 'd', '}', '>', '1']
    [.leaf (.relation ⟨['b', 'c'], .gt, ['1']⟩), .leaf (.relation ⟨['b', 'd'], .gt, ['1']⟩)]

/-- What `{a,b{c,d}}>1` is read as. -/
def outerChoice : Pattern :=
  .alternation ['{', 'a', ',', 'b', '{', 'c', ',', 'd', '}', '}', '>', '1']
    [.leaf (.relation ⟨['a'], .gt, ['1']⟩), innerChoice]

theorem parse_outerChoice : parse outerChoice.text = .ok outerChoice := by
  have inner : parse ['b', '{', 'c', ',', 'd', '}', '>', '1'] = .ok innerChoice := by
    have found : Braces.firstGroup ['b', '{', 'c', ',', 'd', '}', '>', '1'] =
        .ok (some ⟨['b'], [['c'], ['d']], ['>', '1']⟩) := rfl
    rw [parse_of_group found, map_eq_ok_iff]
    refine ⟨_, mapM_eq_ok_iff.2 (.cons ?_ (.cons ?_ .nil)), rfl⟩
    · exact parse_eq_ok_leaf_iff.2 ⟨by decide, parsePlain_eq_ok_iff.1 rfl⟩
    · exact parse_eq_ok_leaf_iff.2 ⟨by decide, parsePlain_eq_ok_iff.1 rfl⟩
  have found : Braces.firstGroup outerChoice.text =
      .ok (some ⟨[], [['a'], ['b', '{', 'c', ',', 'd', '}']], ['>', '1']⟩) := rfl
  rw [parse_of_group found, map_eq_ok_iff]
  refine ⟨_, mapM_eq_ok_iff.2 (.cons ?_ (.cons inner .nil)), rfl⟩
  exact parse_eq_ok_leaf_iff.2 ⟨by decide, parsePlain_eq_ok_iff.1 rfl⟩

theorem text_of_nested_and_range :
    parse outerChoice.text = .ok outerChoice ∧
    (innerChoice.Within outerChoice ∧ parse innerChoice.text = .ok innerChoice ∧
      ∃ before choices rest, (Sequence.grouped before choices rest).Reads innerChoice.text ∧
        [['b', 'c', '>', '1'], ['b', 'd', '>', '1']] =
          choices.toList.map fun choice => before ++ choice.text ++ rest.text) ∧
    Operand.same (.ofPattern outerChoice) (.ofPattern outerChoice) = .ok true ∧
    ∃ range, parse ['a', '>', '1', '<', '=', '2'] = .ok range ∧
      range.text = ['a', '>', '1', '<', '=', '2'] ∧
      Operand.same (.ofPattern range) (.ofPattern outerChoice) = .ok false := by
  have range : parse ['a', '>', '1', '<', '=', '2'] =
      .ok (.leaf (.range ['a'] ⟨['a'], .gt, ['1']⟩ ⟨['a'], .le, ['2']⟩)) := by
    rw [parse_of_no_braces (by decide)]
    rfl
  obtain ⟨-, parts, others⟩ := parse_recovers_text parse_outerChoice
  have inside : innerChoice.Within outerChoice := .branch (by simp) .whole
  obtain ⟨readInner, branches⟩ := parts innerChoice inside
  obtain ⟨text_eq, -, apart⟩ := parse_recovers_text range
  exact ⟨parse_outerChoice, ⟨inside, readInner, branches _ _ rfl⟩,
    (others _ _ parse_outerChoice).1, _, range, text_eq, (apart _ _ parse_outerChoice).1⟩

end Pattern

end Pkgsrc
