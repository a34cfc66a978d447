/-
# Pkgsrc.Proofs.Pattern.Groups -- which texts have a first group

The groups of a text are flawed when braces are not balanced or when some group, at any depth,
has an empty alternative (`Braces.Flawed`).  The search for the first group looks at all braces
but only at the alternatives of that group (`Braces.FlawedAtFirst`).  What is empty further
inside, as in `{a{,b}}`, or in a group behind it, as in `{a}{}`, is passed over
(`Braces.FlawedBeyond`), so that the search refuses the flawed texts except these
(`firstGroup_refuses_flawed_iff`).

To read the text as a pattern is another matter.  The reading comes to every group and refuses
all flawed texts (`exists_fault_of_flawed`).
-/
import Pkgsrc.Proofs.Braces.Balance
import Pkgsrc.Proofs.Pattern.Expansion

namespace Pkgsrc

set_option autoImplicit false

namespace Braces

/-- Braces are not balanced, or some alternative of some group is empty. -/
def Flawed (text : Text) : Prop :=
  ¬ Balanced text ∨ ∃ tree : Sequence, tree.Proper false ∧ tree.text = text ∧ ¬ tree.Filled

/-- Braces are not balanced, or an alternative of the first group is empty. -/
def FlawedAtFirst (text : Text) : Prop :=
  ¬ Balanced text ∨ ∃ before choices rest, (Sequence.grouped before choices rest).Proper false ∧
    (Sequence.grouped before choices rest).text = text ∧ ∃ choice ∈ choices.toList, choice.text = []

/-- The first group has no empty alternative, but there is one inside its alternatives or behind
it. -/
def FlawedBeyond (text : Text) : Prop :=
  ∃ before choices rest, (Sequence.grouped before choices rest).Proper false ∧
    (Sequence.grouped before choices rest).text = text ∧
    (∀ choice ∈ choices.toList, choice.text ≠ []) ∧
    ((∃ choice ∈ choices.toList, ¬ choice.Filled) ∨ ¬ rest.Filled)

/-- The flaws of a tree with a first group. -/
theorem not_filled_grouped_iff {before : Text} {choices : Choices} {rest : Sequence} :
    ¬ (Sequence.grouped before choices rest).Filled ↔
      (∃ choice ∈ choices.toList, choice.text = []) ∨
        (∃ choice ∈ choices.toList, ¬ choice.Filled) ∨ ¬ rest.Filled := by
  have each : (∀ choice ∈ choices.toList, choice.text ≠ [] ∧ choice.Filled) ↔
      (∀ choice ∈ choices.toList, choice.text ≠ []) ∧ ∀ choice ∈ choices.toList, choice.Filled :=
    forall₂_and
  rw [Sequence.filled_grouped_iff, Choices.filled_iff, each, not_and_or, not_and_or, or_assoc]
  simp only [not_forall, not_not, exists_prop]

theorem FlawedAtFirst.flawed {text : Text} (flawed : FlawedAtFirst text) : Flawed text := by
  rcases flawed with unbalanced | ⟨before, choices, rest, proper, written, empty⟩
  · exact .inl unbalanced
  · exact .inr ⟨_, proper, written, not_filled_grouped_iff.2 (.inl empty)⟩

theorem FlawedBeyond.flawed {text : Text} (flawed : FlawedBeyond text) : Flawed text := by
  obtain ⟨before, choices, rest, proper, written, -, further⟩ := flawed
  exact .inr ⟨_, proper, written, not_filled_grouped_iff.2 (.inr further)⟩

/-- A flaw shows in the first group, or else further inside or behind it. -/
theorem Flawed.atFirst_or_beyond {text : Text} (flawed : Flawed text) :
    FlawedAtFirst text ∨ FlawedBeyond text := by
  rcases flawed with unbalanced | ⟨tree, proper, written, unfilled⟩
  · exact .inl (.inl unbalanced)
  · rcases tree.plain_or_grouped with ⟨letters, rfl⟩ | ⟨before, choices, rest, rfl⟩
    · exact absurd (Sequence.filled_plain letters) unfilled
    · by_cases empty : ∃ choice ∈ choices.toList, choice.text = []
      · exact .inl (.inr ⟨before, choices, rest, proper, written, empty⟩)
      · have further := (not_filled_grouped_iff.1 unfilled).resolve_left empty
        refine .inr ⟨before, choices, rest, proper, written, fun choice held nothing => ?_, further⟩
        exact empty ⟨choice, held, nothing⟩

/-- The search for the first group refuses what is flawed at that group. -/
theorem exists_fault_firstGroup_iff {text : Text} :
    (∃ fault, firstGroup text = .error fault) ↔ FlawedAtFirst text := by
  constructor
  · rintro ⟨fault, failed⟩
    rcases unbalanced_or_plain_or_grouped text with
      unbalanced | proper | ⟨before, choices, rest, proper, rfl⟩
    · exact .inl unbalanced
    · rw [firstGroup_text_of_plain proper] at failed
      cases failed
    · by_cases empty : ∃ choice ∈ choices.toList, choice.text = []
      · exact .inr ⟨before, choices, rest, proper, rfl, empty⟩
      · have nonempty : ∀ choice ∈ choices.toList, choice.text ≠ [] :=
          fun choice held nothing => empty ⟨choice, held, nothing⟩
        rw [firstGroup_text_of_group proper nonempty] at failed
        cases failed
  · rintro (unbalanced | ⟨before, choices, rest, proper, rfl, empty⟩)
    · obtain ⟨position, failed⟩ := firstGroup_of_not_balanced unbalanced
      exact ⟨_, failed⟩
    · obtain ⟨position, failed⟩ := firstGroup_text_of_empty proper empty
      exact ⟨_, failed⟩

/-- What is flawed further inside or behind the first group is passed over. -/
theorem exists_group_of_beyond {text : Text} (flawed : FlawedBeyond text) :
    ∃ group, firstGroup text = .ok (some group) := by
  obtain ⟨before, choices, rest, proper, rfl, nonempty, -⟩ := flawed
  exact ⟨_, firstGroup_text_of_group proper nonempty⟩

end Braces

namespace Pattern

open Braces

theorem firstGroup_eq_error_iff {raw : Text} {fault : Malformed} :
    firstGroup raw = .error fault ↔
      ∃ cause, Braces.firstGroup raw = .error cause ∧ fault = braceFault raw cause := by
  unfold firstGroup
  cases Braces.firstGroup raw with
  | error cause => simp [Except.mapError, eq_comm]
  | ok group => simp [Except.mapError]

theorem exists_fault_iff_flawedAtFirst {raw : Text} :
    (∃ fault, firstGroup raw = .error fault) ↔ FlawedAtFirst raw := by
  rw [← exists_fault_firstGroup_iff]
  simp only [firstGroup_eq_error_iff]
  constructor
  · rintro ⟨fault, cause, failed, -⟩
    exact ⟨cause, failed⟩
  · rintro ⟨cause, failed⟩
    exact ⟨_, cause, failed, rfl⟩

/-- No text with a flaw in its groups is read as a pattern. -/
theorem exists_fault_of_flawed {raw : Text} (flawed : Flawed raw) :
    ∃ fault, parse raw = .error fault := by
  cases read : parse raw with
  | error fault => exact ⟨fault, rfl⟩
  | ok pattern =>
      rcases flawed with unbalanced | ⟨tree, proper, rfl, unfilled⟩
      · obtain ⟨tree, reads⟩ := exists_reads_of_parse read
        exact absurd (balanced_iff_exists_tree.2 ⟨tree, reads.proper, reads.text_eq⟩) unbalanced
      · exact absurd (filled_of_parse proper read) unfilled

/-- **The search for the first group refuses flawed groups, unless the flaw is further on.**  It
refuses a text when braces are not balanced or an alternative of the first group is empty.  The
texts that are flawed otherwise, inside the alternatives of that group or behind it, are those for
which it gives a group although the text is flawed.  Read as a pattern, each flawed text is
refused. -/
theorem firstGroup_refuses_flawed_iff (raw : Text) :
    (((∃ fault, firstGroup raw = .error fault) ↔ Flawed raw) ↔ ¬ FlawedBeyond raw) ∧
      ((∃ fault, firstGroup raw = .error fault) ↔ FlawedAtFirst raw) ∧
      (Flawed raw → ∃ fault, parse raw = .error fault) := by
  refine ⟨⟨?_, ?_⟩, exists_fault_iff_flawedAtFirst, exists_fault_of_flawed⟩
  · intro refuses beyond
    obtain ⟨fault, failed⟩ := refuses.2 beyond.flawed
    obtain ⟨cause, failed, -⟩ := firstGroup_eq_error_iff.1 failed
    obtain ⟨group, found⟩ := exists_group_of_beyond beyond
    cases failed.symm.trans found
  · intro notBeyond
    rw [exists_fault_iff_flawedAtFirst]
    exact ⟨FlawedAtFirst.flawed, fun flawed => flawed.atFirst_or_beyond.resolve_right notBeyond⟩

/-- The groups of `{a{,b}}`, where the inner one has an empty alternative. -/
def emptyInside : Sequence :=
  .group (.last (.char 'a' (.group (.more .done (.last (.char 'b' .done))) .done))) .done

theorem firstGroup_of_empty_inside :
    FlawedBeyond emptyInside.text ∧
      ¬ ((∃ fault, firstGroup emptyInside.text = .error fault) ↔ Flawed emptyInside.text) ∧
      (∃ fault, parse emptyInside.text = .error fault) ∧
      ∃ fault, firstGroup ['{', ',', 'b', '}'] = .error fault := by
  have beyond : FlawedBeyond emptyInside.text := by
    refine ⟨[], _, .done, ?_, rfl, ?_, .inl ⟨_, List.mem_singleton_self _, ?_⟩⟩
    · simp [Sequence.grouped, Sequence.append, Sequence.plain, Sequence.Proper, Choices.Proper]
    · simp [Choices.toList, Sequence.text]
    · simp [Sequence.Filled, Choices.Filled, Sequence.text]
  have first : FlawedAtFirst ['{', ',', 'b', '}'] := by
    refine .inr ⟨[], .more .done (.last (.char 'b' .done)), .done, ?_, rfl, .done, ?_, rfl⟩
    · simp [Sequence.grouped, Sequence.append, Sequence.plain, Sequence.Proper, Choices.Proper]
    · simp [Choices.toList]
  obtain ⟨promise, -, reading⟩ := firstGroup_refuses_flawed_iff emptyInside.text
  refine ⟨beyond, fun refuses => promise.1 refuses beyond, reading beyond.flawed, ?_⟩
  exact (firstGroup_refuses_flawed_iff ['{', ',', 'b', '}']).2.1.2 first

/-- The groups of `{a}{}`, the second of which is empty. -/
def emptyBehind : Sequence :=
  .group (.last (.char 'a' .done)) (.group (.last .done) .done)

/-- The search finds the group `{a}` in front of an empty one. -/
theorem firstGroup_passes_over_empty :
    ¬ ((∃ fault, firstGroup ['{', 'a', '}', '{', '}'] = .error fault) ↔
      Flawed ['{', 'a', '}', '{', '}']) := by
  intro refuses
  have flawed : Flawed ['{', 'a', '}', '{', '}'] :=
    .inr ⟨emptyBehind, by simp [emptyBehind, Sequence.Proper, Choices.Proper], rfl,
      by simp [emptyBehind, Sequence.Filled, Choices.Filled, Sequence.text]⟩
  obtain ⟨fault, failed⟩ := refuses.2 flawed
  have found : firstGroup ['{', 'a', '}', '{', '}'] =
      .ok (some ⟨[], [['a']], ['{', '}']⟩) := rfl
  cases failed.symm.trans found

end Pattern

end Pkgsrc
