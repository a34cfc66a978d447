/-
# Pkgsrc.Proofs.Braces.Tree -- texts with groups as trees

A text in which braces are paired is a sequence of characters and groups, and a group holds
alternatives, which are such sequences again.  A tree says which braces belong together:

* `text` writes it: groups between braces, alternatives with commas between them;
* `Proper` says that every character stands for itself where it stands: no brace does, and a
  comma does only outside groups;
* `Filled` says that no alternative is empty, at any depth;
* `expand` gives all texts that the tree stands for: a group stands for each of its alternatives
  in turn, and of several groups the first one varies slowest.

An alternative can be put in the place of its group (`Sequence.around`).  The texts of a tree are
those of the trees that its first group gives so (`expand_grouped`), each of which is written
shorter, and that is an induction on trees (`group_induction`).
-/
import Pkgsrc.Braces

namespace Pkgsrc

set_option autoImplicit false

namespace Braces

mutual

/-- Characters and groups, one after the other. -/
inductive Sequence where
  | done
  | char (c : Char) (rest : Sequence)
  | group (choices : Choices) (rest : Sequence)

/-- The alternatives of a group, of which there is at least one. -/
inductive Choices where
  | last (only : Sequence)
  | more (first : Sequence) (others : Choices)

end

mutual

/-- The sequence as it is written. -/
def Sequence.text : Sequence → Text
  | .done => []
  | .char c rest => c :: rest.text
  | .group choices rest => '{' :: (choices.text ++ '}' :: rest.text)

/-- The inside of a group as it is written. -/
def Choices.text : Choices → Text
  | .last only => only.text
  | .more first others => first.text ++ ',' :: others.text

end

mutual

/-- The characters stand for themselves: braces never do, and commas not `inside` a group. -/
def Sequence.Proper (inside : Bool) : Sequence → Prop
  | .done => True
  | .char c rest =>
      c ≠ '{' ∧ c ≠ '}' ∧ (inside = true → c ≠ ',') ∧ rest.Proper inside
  | .group choices rest => choices.Proper ∧ rest.Proper inside

/-- The characters of all alternatives stand for themselves. -/
def Choices.Proper : Choices → Prop
  | .last only => only.Proper true
  | .more first others => first.Proper true ∧ others.Proper

end

mutual

/-- No alternative of a group is empty. -/
def Sequence.Filled : Sequence → Prop
  | .done => True
  | .char _ rest => rest.Filled
  | .group choices rest => choices.Filled ∧ rest.Filled

/-- No alternative is empty, here or further inside. -/
def Choices.Filled : Choices → Prop
  | .last only => only.text ≠ [] ∧ only.Filled
  | .more first others => first.text ≠ [] ∧ first.Filled ∧ others.Filled

end

mutual

/-- The texts that the sequence stands for, its first group varying slowest. -/
def Sequence.expand : Sequence → List Text
  | .done => [[]]
  | .char c rest => rest.expand.map (c :: ·)
  | .group choices rest => choices.expand.flatMap fun start => rest.expand.map (start ++ ·)

/-- The texts of all alternatives, in order. -/
def Choices.expand : Choices → List Text
  | .last only => only.expand
  | .more first others => first.expand ++ others.expand

end

/-- The tree of a text whose groups are complete: braces are paired and no alternative is
empty. -/
structure Sequence.Reads (tree : Sequence) (raw : Text) : Prop where
  text_eq : tree.text = raw
  proper : tree.Proper false
  filled : tree.Filled

/-! ## Alternatives as a list -/

/-- The alternatives, in order. -/
def Choices.toList : Choices → List Sequence
  | .last only => [only]
  | .more first others => first :: others.toList

theorem Choices.toList_ne_nil (choices : Choices) : choices.toList ≠ [] := by
  cases choices <;> simp [toList]

theorem Choices.proper_iff {choices : Choices} :
    choices.Proper ↔ ∀ choice ∈ choices.toList, choice.Proper true := by
  match choices with
  | .last only => simp [Proper, toList]
  | .more first others => simp [Proper, toList, others.proper_iff]

theorem Choices.filled_iff {choices : Choices} :
    choices.Filled ↔ ∀ choice ∈ choices.toList, choice.text ≠ [] ∧ choice.Filled := by
  match choices with
  | .last only => simp [Filled, toList]
  | .more first others => simp [Filled, toList, others.filled_iff, and_assoc]

theorem Choices.expand_eq (choices : Choices) :
    choices.expand = choices.toList.flatMap Sequence.expand := by
  match choices with
  | .last only => simp [expand, toList]
  | .more first others => simp [expand, toList, others.expand_eq]

mutual

/-- All groups are expanded: no brace is left. -/
theorem Sequence.no_braces_of_mem_expand {tree : Sequence} {inside : Bool} {text : Text}
    (proper : tree.Proper inside) (held : text ∈ tree.expand) : '{' ∉ text ∧ '}' ∉ text := by
  match tree with
  | .done =>
      obtain rfl := List.mem_singleton.1 held
      exact ⟨List.not_mem_nil, List.not_mem_nil⟩
  | .char c rest =>
      obtain ⟨noOpening, noClosing, -, others⟩ := proper
      obtain ⟨tail, inRest, rfl⟩ := List.mem_map.1 held
      obtain ⟨opening, closing⟩ := rest.no_braces_of_mem_expand others inRest
      exact ⟨List.not_mem_cons_of_ne_of_not_mem (Ne.symm noOpening) opening,
        List.not_mem_cons_of_ne_of_not_mem (Ne.symm noClosing) closing⟩
  | .group choices rest =>
      obtain ⟨start, inChoices, held⟩ := List.mem_flatMap.1 held
      obtain ⟨tail, inRest, rfl⟩ := List.mem_map.1 held
      obtain ⟨opening, closing⟩ := choices.no_braces_of_mem_expand proper.1 inChoices
      obtain ⟨opening', closing'⟩ := rest.no_braces_of_mem_expand proper.2 inRest
      exact ⟨by simp [opening, opening'], by simp [closing, closing']⟩

theorem Choices.no_braces_of_mem_expand {choices : Choices} {text : Text}
    (proper : choices.Proper) (held : text ∈ choices.expand) : '{' ∉ text ∧ '}' ∉ text := by
  match choices with
  | .last only => exact only.no_braces_of_mem_expand proper held
  | .more first others =>
      rcases List.mem_append.1 held with inFirst | inOthers
      · exact first.no_braces_of_mem_expand proper.1 inFirst
      · exact others.no_braces_of_mem_expand proper.2 inOthers

end

theorem Choices.length_text_le {choices : Choices} {choice : Sequence}
    (held : choice ∈ choices.toList) : choice.text.length ≤ choices.text.length := by
  match choices with
  | .last only =>
      obtain rfl := List.mem_singleton.1 held
      exact Nat.le_refl _
  | .more first others =>
      simp only [Choices.text, List.length_append, List.length_cons]
      rcases List.mem_cons.1 held with rfl | later
      · omega
      · have shorter := others.length_text_le later
        omega

namespace Sequence

theorem Proper.outside {tree : Sequence} {inside : Bool} (proper : tree.Proper inside) :
    tree.Proper false := by
  match tree with
  | .done => trivial
  | .char c rest =>
      obtain ⟨noOpening, noClosing, -, others⟩ := proper
      exact ⟨noOpening, noClosing, by simp, others.outside⟩
  | .group choices rest => exact ⟨proper.1, proper.2.outside⟩

/-! ## One sequence after another -/

/-- The one sequence, then the other. -/
def append : Sequence → Sequence → Sequence
  | .done, next => next
  | .char c rest, next => .char c (rest.append next)
  | .group choices rest, next => .group choices (rest.append next)

@[simp] theorem text_append (tree next : Sequence) :
    (tree.append next).text = tree.text ++ next.text := by
  match tree with
  | .done => rfl
  | .char c rest => simp [append, text, rest.text_append next]
  | .group choices rest => simp [append, text, rest.text_append next]

@[simp] theorem proper_append_iff {tree next : Sequence} {inside : Bool} :
    (tree.append next).Proper inside ↔ tree.Proper inside ∧ next.Proper inside := by
  match tree with
  | .done => simp [append, Proper]
  | .char c rest => simp [append, Proper, rest.proper_append_iff, and_assoc]
  | .group choices rest => simp [append, Proper, rest.proper_append_iff, and_assoc]

@[simp] theorem filled_append_iff {tree next : Sequence} :
    (tree.append next).Filled ↔ tree.Filled ∧ next.Filled := by
  match tree with
  | .done => simp [append, Filled]
  | .char c rest => simp [append, Filled, rest.filled_append_iff]
  | .group choices rest => simp [append, Filled, rest.filled_append_iff, and_assoc]

theorem expand_append (tree next : Sequence) :
    (tree.append next).expand =
      tree.expand.flatMap fun start => next.expand.map (start ++ ·) := by
  match tree with
  | .done => simp [append, expand]
  | .char c rest =>
      simp [append, expand, rest.expand_append next, List.map_flatMap, List.flatMap_map,
        Function.comp_def]
  | .group choices rest =>
      simp [append, expand, rest.expand_append next, List.map_flatMap, List.flatMap_map,
        List.flatMap_assoc, Function.comp_def]

/-! ## The first group -/

/-- A sequence without groups. -/
def plain (letters : Text) : Sequence :=
  letters.foldr .char .done

@[simp] theorem text_plain (letters : Text) : (plain letters).text = letters := by
  induction letters with
  | nil => rfl
  | cons c letters ih => exact congrArg (c :: ·) ih

@[simp] theorem proper_plain_iff {letters : Text} :
    (plain letters).Proper false ↔ '{' ∉ letters ∧ '}' ∉ letters := by
  induction letters with
  | nil => simp [plain, Proper]
  | cons c letters ih =>
      have step : (plain (c :: letters)).Proper false ↔
          c ≠ '{' ∧ c ≠ '}' ∧ (plain letters).Proper false := by simp [plain, Proper]
      rw [step, ih]
      simp only [List.mem_cons, not_or, eq_comm]
      constructor
      · rintro ⟨noOpening, noClosing, opening, closing⟩
        exact ⟨⟨noOpening, opening⟩, noClosing, closing⟩
      · rintro ⟨⟨noOpening, opening⟩, noClosing, closing⟩
        exact ⟨noOpening, noClosing, opening, closing⟩

/-- Inside a group commas do not stand for themselves either. -/
theorem proper_plain_inside {letters : Text}
    (unmarked : ∀ c ∈ letters, c ≠ '{' ∧ c ≠ '}' ∧ c ≠ ',') : (plain letters).Proper true := by
  induction letters with
  | nil => trivial
  | cons c letters ih =>
      obtain ⟨⟨noOpening, noClosing, noComma⟩, others⟩ := List.forall_mem_cons.1 unmarked
      exact ⟨noOpening, noClosing, fun _ => noComma, ih others⟩

@[simp] theorem filled_plain (letters : Text) : (plain letters).Filled := by
  induction letters with
  | nil => trivial
  | cons c letters ih => exact ih

@[simp] theorem expand_plain (letters : Text) : (plain letters).expand = [letters] := by
  induction letters with
  | nil => rfl
  | cons c letters ih => exact congrArg (List.map (c :: ·)) ih

/-- Characters, then a first group, then anything. -/
def grouped (before : Text) (choices : Choices) (rest : Sequence) : Sequence :=
  (plain before).append (.group choices rest)

theorem text_grouped (before : Text) (choices : Choices) (rest : Sequence) :
    (grouped before choices rest).text = before ++ '{' :: (choices.text ++ '}' :: rest.text) := by
  rw [grouped, text_append, text_plain, text]

theorem proper_grouped_iff {before : Text} {choices : Choices} {rest : Sequence} :
    (grouped before choices rest).Proper false ↔
      ('{' ∉ before ∧ '}' ∉ before) ∧ choices.Proper ∧ rest.Proper false := by
  rw [grouped, proper_append_iff, proper_plain_iff, Proper]

theorem filled_grouped_iff {before : Text} {choices : Choices} {rest : Sequence} :
    (grouped before choices rest).Filled ↔ choices.Filled ∧ rest.Filled := by
  simp [grouped, Filled]

/-- A sequence has no group, or a first one. -/
theorem plain_or_grouped (tree : Sequence) :
    (∃ letters, tree = plain letters) ∨ ∃ before choices rest, tree = grouped before choices rest := by
  match tree with
  | .done => exact Or.inl ⟨[], rfl⟩
  | .group choices rest => exact Or.inr ⟨[], choices, rest, rfl⟩
  | .char c rest =>
      rcases rest.plain_or_grouped with ⟨letters, rfl⟩ | ⟨before, choices, others, rfl⟩
      · exact Or.inl ⟨c :: letters, rfl⟩
      · exact Or.inr ⟨c :: before, choices, others, rfl⟩

/-! ## One group less -/

/-- An alternative in the place of its group. -/
def around (before : Text) (rest choice : Sequence) : Sequence :=
  (plain before).append (choice.append rest)

theorem text_around (before : Text) (rest choice : Sequence) :
    (around before rest choice).text = before ++ choice.text ++ rest.text := by
  simp [around]

theorem proper_around {before : Text} {choices : Choices} {rest choice : Sequence}
    (proper : (grouped before choices rest).Proper false) (held : choice ∈ choices.toList) :
    (around before rest choice).Proper false := by
  obtain ⟨plainBefore, choicesProper, restProper⟩ := proper_grouped_iff.1 proper
  have choiceProper := Choices.proper_iff.1 choicesProper choice held
  rw [around, proper_append_iff, proper_append_iff, proper_plain_iff]
  exact ⟨plainBefore, choiceProper.outside, restProper⟩

theorem filled_around_iff {before : Text} {rest choice : Sequence} :
    (around before rest choice).Filled ↔ choice.Filled ∧ rest.Filled := by
  simp [around]

/-- The first group varies slowest: its alternatives take its place one after the other. -/
theorem expand_grouped (before : Text) (choices : Choices) (rest : Sequence) :
    (grouped before choices rest).expand =
      choices.toList.flatMap fun choice => (around before rest choice).expand := by
  simp only [grouped, around, expand_append, expand_plain, List.flatMap_singleton, expand,
    choices.expand_eq, List.flatMap_assoc, List.map_flatMap]

/-- **What holds of a tree without groups, and of a tree with groups when it holds with each
alternative in the place of the first one, holds of all trees.** -/
theorem group_induction {motive : Sequence → Prop}
    (onPlain : ∀ letters, (plain letters).Proper false → motive (plain letters))
    (onGroup : ∀ before choices rest, (grouped before choices rest).Proper false →
      (∀ choice ∈ choices.toList, motive (around before rest choice)) →
      motive (grouped before choices rest))
    (tree : Sequence) (proper : tree.Proper false) : motive tree := by
  rcases tree.plain_or_grouped with ⟨letters, rfl⟩ | ⟨before, choices, rest, rfl⟩
  · exact onPlain letters proper
  · refine onGroup before choices rest proper fun choice held => ?_
    -- The braces of the group are gone, and its other alternatives.
    have shorter : (around before rest choice).text.length <
        (grouped before choices rest).text.length := by
      have part := Choices.length_text_le held
      rw [text_around, text_grouped]
      simp only [List.length_append, List.length_cons]
      omega
    exact group_induction onPlain onGroup (around before rest choice) (proper_around proper held)
termination_by tree.text.length

end Sequence

end Braces

end Pkgsrc
