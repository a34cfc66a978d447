/-
# Pkgsrc.Proofs.Pattern.Expansion -- group by group is all groups at once

`Pattern.parse` never sees the tree of a text.  It puts each alternative in the place of the
first group and reads the texts so made from their beginning, nested and later groups included.
The result is nevertheless what the tree says: the leaves are the leaves of the texts that the
tree expands to, in the same order and with the same first fault (`map_leaves_parse`), and only
the text of a tree without empty alternatives is read (`exists_reads_of_parse`).

The induction takes the first group away (`Sequence.group_induction`).
-/
import Pkgsrc.Proofs.Braces.Scan
import Pkgsrc.Proofs.Pattern.Decision

namespace Pkgsrc

set_option autoImplicit false

namespace Pattern

open Braces

/-! ## One step of the reading -/

theorem parse_of_plain {text : Text} (found : Braces.firstGroup text = .ok none) :
    parse text = (parsePlain text).map .leaf := by
  rw [parse]
  split
  · simp_all
  · rfl
  · simp_all

theorem parse_of_fault {text : Text} {fault : Braces.Fault}
    (found : Braces.firstGroup text = .error fault) :
    parse text = .error (braceFault text fault) := by
  rw [parse]
  split <;> simp_all

theorem parse_of_group {text : Text} {group : Group}
    (found : Braces.firstGroup text = .ok (some group)) :
    parse text =
      (group.alternatives.mapM fun alternative => parse (group.around alternative)).map
        (.alternation text) := by
  rw [parse]
  split
  · simp_all
  · simp_all
  · rename_i other found'
    obtain rfl : group = other := by simpa using found.symm.trans found'
    rw [List.mapM_subtype (g := fun alternative => parse (group.around alternative))
      fun _ _ => rfl, List.unattach_attach]
    cases group.alternatives.mapM fun alternative => parse (group.around alternative) <;> rfl

theorem parse_of_no_braces {text : Text} (absent : '{' ∉ text ∧ '}' ∉ text) :
    parse text = (parsePlain text).map .leaf :=
  parse_of_plain (firstGroup_text_of_plain (Sequence.proper_plain_iff.2 absent))

/-- The text of a tree is read by putting each alternative in the place of the first group. -/
theorem parse_text_of_group {before : Text} {choices : Choices} {rest : Sequence}
    (proper : (Sequence.grouped before choices rest).Proper false)
    (nonempty : ∀ choice ∈ choices.toList, choice.text ≠ []) :
    parse (Sequence.grouped before choices rest).text =
      (choices.toList.mapM fun choice => parse (Sequence.around before rest choice).text).map
        (.alternation (Sequence.grouped before choices rest).text) := by
  rw [parse_of_group (firstGroup_text_of_group proper nonempty), List.mapM_map]
  simp only [Function.comp_def, Group.around, Sequence.text_around]

/-! ## The whole reading -/

/-- Only a text without empty alternatives is read. -/
theorem filled_of_parse {tree : Sequence} (proper : tree.Proper false) {pattern : Pattern}
    (read : parse tree.text = .ok pattern) : tree.Filled := by
  refine Sequence.group_induction
    (motive := fun tree => (∃ pattern, parse tree.text = .ok pattern) → tree.Filled)
    ?plain ?group tree proper ⟨pattern, read⟩
  case plain => exact fun letters _ _ => Sequence.filled_plain letters
  case group =>
    rintro before choices rest proper ih ⟨pattern, read⟩
    have nonempty : ∀ choice ∈ choices.toList, choice.text ≠ [] := by
      intro choice held nothing
      obtain ⟨position, stuck⟩ := firstGroup_text_of_empty proper ⟨choice, held, nothing⟩
      rw [parse_of_fault stuck] at read
      cases read
    rw [parse_text_of_group proper nonempty] at read
    obtain ⟨branches, each, -⟩ := map_eq_ok_iff.1 read
    have branchRead := exists_mapM_eq_ok_iff.1 ⟨branches, each⟩
    have parts : ∀ choice ∈ choices.toList, choice.Filled ∧ rest.Filled := fun choice held =>
      Sequence.filled_around_iff.1 (ih choice held (branchRead choice held))
    -- There is an alternative, so what follows the group is filled too.
    obtain ⟨some, others, shape⟩ := List.exists_cons_of_ne_nil choices.toList_ne_nil
    have restFilled : rest.Filled := (parts some (shape ▸ List.mem_cons_self)).2
    have choicesFilled : choices.Filled :=
      Choices.filled_iff.2 fun choice held => ⟨nonempty choice held, (parts choice held).1⟩
    exact Sequence.filled_grouped_iff.2 ⟨choicesFilled, restFilled⟩

/-- The texts that are read are those of trees. -/
theorem exists_reads_of_parse {raw : Text} {pattern : Pattern} (read : parse raw = .ok pattern) :
    ∃ tree : Sequence, tree.Reads raw := by
  cases found : Braces.firstGroup raw with
  | error fault => rw [parse_of_fault found] at read; cases read
  | ok group =>
      obtain ⟨tree, proper, rfl⟩ := exists_proper_of_firstGroup found
      exact ⟨tree, rfl, proper, filled_of_parse proper read⟩

/-- **The leaves of a text are those of the texts that it expands to.** -/
theorem map_leaves_parse {tree : Sequence} (proper : tree.Proper false) (filled : tree.Filled) :
    (parse tree.text).map leaves = tree.expand.mapM parsePlain := by
  refine Sequence.group_induction
    (motive := fun tree => tree.Filled → (parse tree.text).map leaves = tree.expand.mapM parsePlain)
    ?plain ?group tree proper filled
  case plain =>
    intro letters proper _
    rw [Sequence.text_plain, Sequence.expand_plain, mapM_cons_eq,
      parse_of_plain (firstGroup_text_of_plain proper)]
    cases parsePlain letters <;> rfl
  case group =>
    intro before choices rest proper ih filled
    obtain ⟨choicesFilled, restFilled⟩ := Sequence.filled_grouped_iff.1 filled
    have parts := Choices.filled_iff.1 choicesFilled
    have branchLeaves : ∀ choice ∈ choices.toList,
        (parse (Sequence.around before rest choice).text).map leaves =
          (Sequence.around before rest choice).expand.mapM parsePlain := fun choice held =>
      ih choice held (Sequence.filled_around_iff.2 ⟨(parts choice held).2, restFilled⟩)
    calc (parse (Sequence.grouped before choices rest).text).map leaves
      _ = (choices.toList.mapM fun choice =>
            parse (Sequence.around before rest choice).text).map (List.flatMap leaves) := by
          rw [parse_text_of_group proper fun choice held => (parts choice held).1]
          cases choices.toList.mapM fun choice =>
              parse (Sequence.around before rest choice).text with
          | error fault => rfl
          | ok branches => exact congrArg Except.ok (leavesOfAll_eq_flatMap branches)
      _ = (choices.toList.mapM fun choice =>
            (Sequence.around before rest choice).expand.mapM parsePlain).map List.flatten := by
          rw [mapM_map_flatMap, mapM_congr branchLeaves]
      _ = (Sequence.grouped before choices rest).expand.mapM parsePlain := by
          rw [Sequence.expand_grouped, mapM_flatMap]

theorem parse_of_mem_expand {tree : Sequence} (proper : tree.Proper false) {text : Text}
    (held : text ∈ tree.expand) : parse text = (parsePlain text).map .leaf :=
  parse_of_no_braces (tree.no_braces_of_mem_expand proper held)

theorem exists_parse_iff {tree : Sequence} (proper : tree.Proper false) {text : Text}
    (held : text ∈ tree.expand) :
    (∃ part, parse text = .ok part) ↔ ∃ leaf, parsePlain text = .ok leaf := by
  rw [parse_of_mem_expand proper held, exists_map_eq_ok_iff]

section Reads

variable {tree : Sequence} {raw : Text} (reads : tree.Reads raw)
include reads

theorem map_leaves_parse_of_reads : (parse raw).map leaves = tree.expand.mapM parsePlain := by
  rw [← reads.text_eq]
  exact map_leaves_parse reads.proper reads.filled

theorem exists_parse_iff_of_reads :
    (∃ pattern, parse raw = .ok pattern) ↔
      ∀ text ∈ tree.expand, ∃ part, parse text = .ok part := by
  have whole := map_leaves_parse_of_reads reads
  have each : (∀ text ∈ tree.expand, ∃ part, parse text = .ok part) ↔
      ∃ found, tree.expand.mapM parsePlain = .ok found := by
    rw [exists_mapM_eq_ok_iff]
    exact forall₂_congr fun text held => exists_parse_iff reads.proper held
  rw [each, ← whole, exists_map_eq_ok_iff]

/-- The leaves, one for each text that the tree expands to. -/
theorem forall₂_leaves_of_reads {pattern : Pattern} (read : parse raw = .ok pattern) :
    List.Forall₂ (fun text leaf => parse text = .ok (.leaf leaf)) tree.expand pattern.leaves := by
  have whole := map_leaves_parse_of_reads reads
  rw [read] at whole
  have parts : tree.expand.mapM parse = .ok (pattern.leaves.map .leaf) := by
    rw [mapM_congr fun text held => parse_of_mem_expand reads.proper held, mapM_map_result, ← whole]
    rfl
  have each := mapM_eq_ok_iff.1 parts
  rwa [List.forall₂_map_right_iff] at each

/-- Every leaf was read from one of the texts that the tree expands to. -/
theorem exists_readFrom_of_reads {pattern : Pattern} (read : parse raw = .ok pattern)
    {leaf : Leaf} (held : leaf ∈ pattern.leaves) : ∃ text ∈ tree.expand, leaf.ReadFrom text := by
  have whole := map_leaves_parse_of_reads reads
  rw [read] at whole
  obtain ⟨text, inside, found⟩ := exists_item_of_mapM_eq_ok whole.symm held
  exact ⟨text, inside, parsePlain_eq_ok_iff.1 found⟩

/-- The first text that is not read. -/
theorem exists_first_fault_of_reads {fault : Malformed} (stuck : parse raw = .error fault) :
    ∃ earlier text later, tree.expand = earlier ++ text :: later ∧
      (∀ before ∈ earlier, ∃ part, parse before = .ok part) ∧ parse text = .error fault := by
  have whole := map_leaves_parse_of_reads reads
  rw [stuck] at whole
  obtain ⟨earlier, text, later, shape, fine, fails⟩ := mapM_eq_error_iff.1 whole.symm
  have inside : ∀ before ∈ earlier, before ∈ tree.expand := fun before held =>
    shape ▸ List.mem_append_left _ held
  refine ⟨earlier, text, later, shape, fun before held => ?_, ?_⟩
  · exact (exists_parse_iff reads.proper (inside before held)).2 (fine before held)
  · have held : text ∈ tree.expand := shape ▸ List.mem_append_right _ List.mem_cons_self
    rw [parse_of_mem_expand reads.proper held, map_eq_error_iff, fails]

theorem exists_branches_of_reads (braced : '{' ∈ raw ∨ '}' ∈ raw) {pattern : Pattern}
    (read : parse raw = .ok pattern) : ∃ branches, pattern = .alternation raw branches := by
  obtain ⟨rfl, proper, filled⟩ := reads
  rcases tree.plain_or_grouped with ⟨letters, rfl⟩ | ⟨before, choices, rest, rfl⟩
  · obtain ⟨opening, closing⟩ := Sequence.proper_plain_iff.1 proper
    rw [Sequence.text_plain] at braced
    exact absurd braced (not_or.2 ⟨opening, closing⟩)
  · have parts := Choices.filled_iff.1 (Sequence.filled_grouped_iff.1 filled).1
    rw [parse_text_of_group proper fun choice held => (parts choice held).1] at read
    obtain ⟨branches, -, shape⟩ := map_eq_ok_iff.1 read
    exact ⟨branches, shape.symm⟩

end Reads

/-- Only a text without braces is read as a leaf. -/
theorem parse_eq_ok_leaf_iff {text : Text} {leaf : Leaf} :
    parse text = .ok (.leaf leaf) ↔ ('{' ∉ text ∧ '}' ∉ text) ∧ leaf.ReadFrom text := by
  rw [← parsePlain_eq_ok_iff]
  constructor
  · intro read
    obtain ⟨tree, reads⟩ := exists_reads_of_parse read
    have bare : '{' ∉ text ∧ '}' ∉ text := by
      refine not_or.1 fun braced => ?_
      obtain ⟨branches, shape⟩ := exists_branches_of_reads reads braced read
      cases shape
    rw [parse_of_no_braces bare] at read
    obtain ⟨other, found, same⟩ := map_eq_ok_iff.1 read
    cases same
    exact ⟨bare, found⟩
  · rintro ⟨bare, read⟩
    rw [parse_of_no_braces bare, read]
    rfl

/-! ## Candidates -/

/-- The pattern that a text stands for gives this answer for a candidate. -/
def Answers (candidate text : Text) (answer : Bool) : Prop :=
  ∃ pattern, parse text = .ok pattern ∧ pattern.accepts candidate = .ok answer

theorem accepts_leaf (leaf : Leaf) (candidate : Text) :
    (Pattern.leaf leaf).accepts candidate = leaf.accepts candidate := by
  simp only [accepts, firstMatch]
  cases leaf.accepts candidate with
  | error fault => rfl
  | ok held => cases held <;> rfl

/-- Leaves that can all be tried are tried as a disjunction. -/
theorem firstLeaf_isSome {candidate : Text} {tests : List Leaf} {answers : List Bool}
    (each : List.Forall₂ (fun leaf answer => Leaf.accepts leaf candidate = .ok answer) tests answers) :
    (Leaf.firstLeaf candidate tests).map Option.isSome = .ok (answers.any id) := by
  induction each with
  | nil => rfl
  | @cons leaf answer tests answers tried others ih =>
      cases answer with
      | false => simpa [Leaf.firstLeaf, tried] using ih
      | true => simp [Leaf.firstLeaf, tried, Except.map]

/-- A parsed pattern fails on a malformed candidate or a long number only. -/
theorem fault_of_parse {raw candidate : Text} {pattern : Pattern}
    (read : parse raw = .ok pattern) {fault : Matching.Fault}
    (failed : pattern.accepts candidate = .error fault) :
    fault = .malformedName candidate ∨ ∃ cause, fault = .number cause := by
  obtain ⟨tree, reads⟩ := exists_reads_of_parse read
  rw [accepts, firstMatch_eq_firstLeaf] at failed
  obtain ⟨leaf, ⟨earlier, later, shape, -⟩, leafFailed⟩ :=
    Leaf.firstLeaf_eq_error_iff.1 (map_eq_error_iff.1 failed)
  have held : leaf ∈ pattern.leaves := by simp [shape]
  obtain ⟨text, -, readFrom⟩ := exists_readFrom_of_reads reads read held
  exact readFrom.fault_of_accepts leafFailed

/-- No number in the way, a candidate with a hyphen can be tried on every text and its leaf. -/
theorem exists_answers {candidate : Text} (hyphen : '-' ∈ candidate)
    (short : Decimal.Within candidate) {texts : List Text} {tests : List Leaf}
    (each : List.Forall₂ (fun text leaf => parse text = .ok (.leaf leaf)) texts tests)
    (shortTexts : ∀ text ∈ texts, Decimal.Within text) :
    ∃ answers, List.Forall₂ (Answers candidate) texts answers ∧
      List.Forall₂ (fun leaf answer => Leaf.accepts leaf candidate = .ok answer) tests answers := by
  induction each with
  | nil => exact ⟨[], .nil, .nil⟩
  | @cons text leaf texts tests read others ih =>
      obtain ⟨shortText, shortOthers⟩ := List.forall_mem_cons.1 shortTexts
      obtain ⟨answers, byText, byLeaf⟩ := ih shortOthers
      obtain ⟨-, plain⟩ := parse_eq_ok_leaf_iff.1 read
      obtain ⟨held, tried⟩ := plain.exists_accepts hyphen short shortText
      have answered : Answers candidate text held :=
        ⟨.leaf leaf, read, by rw [accepts_leaf, tried]⟩
      exact ⟨held :: answers, .cons answered byText, .cons tried byLeaf⟩

theorem exists_answers_of_reads {tree : Sequence} {raw candidate : Text} (reads : tree.Reads raw)
    {pattern : Pattern} (read : parse raw = .ok pattern) (hyphen : '-' ∈ candidate)
    (short : Decimal.Within candidate) (shortTexts : ∀ text ∈ tree.expand, Decimal.Within text) :
    ∃ answers, List.Forall₂ (Answers candidate) tree.expand answers ∧
      pattern.accepts candidate = .ok (answers.any id) := by
  obtain ⟨answers, byText, byLeaf⟩ :=
    exists_answers hyphen short (forall₂_leaves_of_reads reads read) shortTexts
  refine ⟨answers, byText, ?_⟩
  rw [accepts, firstMatch_eq_firstLeaf]
  exact firstLeaf_isSome byLeaf

/-- **Reading a text with braces is reading the texts that it expands to.**  The text is read
exactly when it has a tree and every text of the expansion is read, and it has one tree only.
Then the leaves are those of the expansion, in order, and a candidate is accepted when one of
them accepts it; otherwise the fault is the first one of the expansion. -/
theorem parse_eq_parse_of_expand (raw : Text) (braced : '{' ∈ raw ∨ '}' ∈ raw) :
    ((∃ pattern, parse raw = .ok pattern) ↔
      ∃ tree : Sequence, tree.Reads raw ∧ ∀ text ∈ tree.expand, ∃ part, parse text = .ok part) ∧
    ∀ tree : Sequence, tree.Reads raw →
      (∀ other : Sequence, other.Reads raw → other = tree) ∧
      (∀ pattern, parse raw = .ok pattern →
        (∃ branches, pattern = .alternation raw branches) ∧
        List.Forall₂ (fun text leaf => parse text = .ok (.leaf leaf)) tree.expand pattern.leaves ∧
        ∀ candidate, '-' ∈ candidate → Decimal.Within candidate →
          (∀ text ∈ tree.expand, Decimal.Within text) →
          ∃ answers, List.Forall₂ (Answers candidate) tree.expand answers ∧
            pattern.accepts candidate = .ok (answers.any id)) ∧
      (∀ fault, parse raw = .error fault →
        ∃ earlier text later, tree.expand = earlier ++ text :: later ∧
          (∀ before ∈ earlier, ∃ part, parse before = .ok part) ∧
          parse text = .error fault) := by
  refine ⟨⟨?_, ?_⟩, fun tree reads => ⟨?_, ?_, ?_⟩⟩
  · rintro ⟨pattern, read⟩
    obtain ⟨tree, reads⟩ := exists_reads_of_parse read
    exact ⟨tree, reads, (exists_parse_iff_of_reads reads).1 ⟨pattern, read⟩⟩
  · rintro ⟨tree, reads, each⟩
    exact (exists_parse_iff_of_reads reads).2 each
  · intro other otherReads
    exact otherReads.unique reads
  · intro pattern read
    refine ⟨exists_branches_of_reads reads braced read, forall₂_leaves_of_reads reads read, ?_⟩
    intro candidate hyphen short shortTexts
    exact exists_answers_of_reads reads read hyphen short shortTexts
  · intro fault stuck
    exact exists_first_fault_of_reads reads stuck

/-- A group in a group, `{a,b{c,d}}>=1`. -/
def nested : Sequence :=
  .group
    (.more (.char 'a' .done)
      (.last (.char 'b' (.group (.more (.char 'c' .done) (.last (.char 'd' .done))) .done))))
    (.char '>' (.char '=' (.char '1' .done)))

/-- Two groups, `{a,>}{b,c}`, of whose texts the third has no base. -/
def nameless : Sequence :=
  .group (.more (.char 'a' .done) (.last (.char '>' .done)))
    (.group (.more (.char 'b' .done) (.last (.char 'c' .done))) .done)

theorem parse_of_nested_and_nameless :
    (∃ pattern, parse nested.text = .ok pattern ∧
      (∃ branches, pattern = .alternation nested.text branches) ∧
      List.Forall₂ (fun text leaf => parse text = .ok (.leaf leaf))
        [['a', '>', '=', '1'], ['b', 'c', '>', '=', '1'], ['b', 'd', '>', '=', '1']]
        pattern.leaves ∧
      pattern.accepts ['b', 'd', '-', '2'] = .ok true) ∧
    (∃ fault, parse nameless.text = .error fault ∧
      ∃ earlier text later,
        [['a', 'b'], ['a', 'c'], ['>', 'b'], ['>', 'c']] = earlier ++ text :: later ∧
        (∀ before ∈ earlier, ∃ part, parse before = .ok part) ∧ parse text = .error fault) := by
  have readAs {text : Text} {leaf : Leaf} (bare : '{' ∉ text ∧ '}' ∉ text)
      (read : parsePlain text = .ok leaf) : parse text = .ok (.leaf leaf) :=
    parse_eq_ok_leaf_iff.2 ⟨bare, parsePlain_eq_ok_iff.1 read⟩
  constructor
  · have reads : nested.Reads nested.text :=
      ⟨rfl, by simp [nested, Sequence.Proper, Choices.Proper],
        by simp [nested, Sequence.Filled, Choices.Filled, Sequence.text]⟩
    have expand_eq : nested.expand =
        [['a', '>', '=', '1'], ['b', 'c', '>', '=', '1'], ['b', 'd', '>', '=', '1']] := rfl
    have last : parse ['b', 'd', '>', '=', '1'] =
        .ok (.leaf (.relation ⟨['b', 'd'], .ge, ['1']⟩)) := readAs (by decide) rfl
    obtain ⟨succeeds, each⟩ := parse_eq_parse_of_expand nested.text (Or.inl (by decide))
    obtain ⟨pattern, read⟩ : ∃ pattern, parse nested.text = .ok pattern := by
      refine succeeds.2 ⟨nested, reads, ?_⟩
      rw [expand_eq]
      simp only [List.forall_mem_cons]
      exact ⟨⟨_, readAs (by decide) rfl⟩, ⟨_, readAs (by decide) rfl⟩, ⟨_, last⟩, by simp⟩
    obtain ⟨branches, leaves, candidates⟩ := (each nested reads).2.1 pattern read
    have short : ∀ text ∈ nested.expand, Decimal.Within text := by
      have bounded : ∀ text ∈ nested.expand, text.length ≤ Decimal.digitLimit := by decide
      exact fun text held => Decimal.within_of_length_le (bounded text held)
    obtain ⟨answers, byText, answered⟩ := candidates ['b', 'd', '-', '2'] (by decide)
      (Decimal.within_of_length_le (by decide)) short
    refine ⟨pattern, read, branches, expand_eq ▸ leaves, ?_⟩
    rw [expand_eq] at byText
    rcases byText with _ | ⟨-, _ | ⟨-, _ | ⟨⟨part, partRead, tried⟩, _ | _⟩⟩⟩
    rw [last] at partRead
    cases partRead
    have holds : (Leaf.relation ⟨['b', 'd'], .ge, ['1']⟩).accepts ['b', 'd', '-', '2'] =
        .ok true := rfl
    rw [accepts_leaf, holds] at tried
    cases tried
    rw [answered]
    simp
  · have reads : nameless.Reads nameless.text :=
      ⟨rfl, by simp [nameless, Sequence.Proper, Choices.Proper],
        by simp [nameless, Sequence.Filled, Choices.Filled, Sequence.text]⟩
    obtain ⟨succeeds, each⟩ := parse_eq_parse_of_expand nameless.text (Or.inl (by decide))
    cases read : parse nameless.text with
    | error fault => exact ⟨fault, rfl, (each nameless reads).2.2 fault read⟩
    | ok pattern =>
        obtain ⟨tree, treeReads, fine⟩ := succeeds.1 ⟨pattern, read⟩
        obtain rfl := (each nameless reads).1 tree treeReads
        obtain ⟨part, found⟩ := fine ['>', 'b'] (by decide)
        rw [parse_of_no_braces (by decide)] at found
        cases found

end Pattern

end Pkgsrc
