/-
# Pkgsrc.Proofs.Braces.Scan -- a scan that counts braces sees the tree

Groups are found by a scan from left to right that only counts open braces.  On the text of a
tree the count comes back, after every part of the tree, to what it was before that part
(`Sequence.unpairedFrom_text`, `Sequence.read_text`), so the scan finds the tree's first group
with the texts of its alternatives (`firstGroup_text_of_group`).  And every text whose braces
are paired is the text of a tree (`exists_proper_of_unpaired`), of one only
(`Sequence.text_injective`).
-/
import Pkgsrc.Proofs.Braces.Tree
import Mathlib.Data.List.TakeWhile

namespace Pkgsrc

set_option autoImplicit false

namespace Braces

/-! ## Pairs -/

mutual

/-- Past a sequence, the same braces are open as before it. -/
theorem Sequence.unpairedFrom_text {tree : Sequence} {inside : Bool}
    (proper : tree.Proper inside) (position : Nat) (opened : List Nat) (tail : Text) :
    unpairedFrom position opened (tree.text ++ tail) =
      unpairedFrom (position + tree.text.length) opened tail := by
  match tree with
  | .done => rfl
  | .char c rest =>
      obtain ⟨noOpening, noClosing, -, others⟩ := proper
      simp only [Sequence.text, List.cons_append, unpairedFrom, if_neg noOpening, if_neg noClosing,
        rest.unpairedFrom_text others, List.length_cons]
      congr 1
      omega
  | .group choices rest =>
      simp only [Sequence.text, List.cons_append, List.append_assoc, unpairedFrom, if_true,
        choices.unpairedFrom_text proper.1, Char.reduceEq, if_false,
        rest.unpairedFrom_text proper.2, List.length_cons, List.length_append]
      congr 1
      omega

/-- Past the inside of a group, the same braces are open as before it. -/
theorem Choices.unpairedFrom_text {choices : Choices} (proper : choices.Proper)
    (position : Nat) (opened : List Nat) (tail : Text) :
    unpairedFrom position opened (choices.text ++ tail) =
      unpairedFrom (position + choices.text.length) opened tail := by
  match choices with
  | .last only => exact only.unpairedFrom_text proper position opened tail
  | .more first others =>
      simp only [Choices.text, List.append_assoc, List.cons_append,
        first.unpairedFrom_text proper.1, unpairedFrom, Char.reduceEq, if_false,
        others.unpairedFrom_text proper.2, List.length_append, List.length_cons]
      congr 1
      omega

end

/-- In the text of a tree all braces are paired. -/
theorem unpaired?_text {tree : Sequence} (proper : tree.Proper false) :
    unpaired? tree.text = none := by
  have scanned := tree.unpairedFrom_text proper 0 [] []
  rwa [List.append_nil] at scanned

/-! ## Cuts -/

/-- Put characters in front of the first alternative. -/
def Body.pushAll (start : Text) (body : Body) : Body :=
  ⟨start ++ body.first, body.others, body.after⟩

@[simp] theorem Body.push_pushAll (c : Char) (start : Text) (body : Body) :
    (body.pushAll start).push c = body.pushAll (c :: start) := rfl

@[simp] theorem Body.pushAll_pushAll (start more : Text) (body : Body) :
    (body.pushAll more).pushAll start = body.pushAll (start ++ more) := by
  simp [pushAll]

mutual

/-- A sequence is read as a part of one alternative: its commas do not cut, for it has none or
stands deeper. -/
theorem Sequence.read_text {tree : Sequence} {inside : Bool} (proper : tree.Proper inside)
    {depth : Nat} (cuts : depth = 0 → inside = true) (tail : Text) :
    Body.read depth (tree.text ++ tail) = (Body.read depth tail).pushAll tree.text := by
  match tree with
  | .done => rfl
  | .char c rest =>
      obtain ⟨noOpening, noClosing, noComma, others⟩ := proper
      have kept : ¬ (c = ',' ∧ depth = 0) := fun ⟨comma, top⟩ => noComma (cuts top) comma
      simp only [Sequence.text, List.cons_append, Body.read, if_neg noOpening, if_neg noClosing,
        if_neg kept, rest.read_text others cuts, Body.push_pushAll]
  | .group choices rest =>
      simp only [Sequence.text, List.cons_append, List.append_assoc, Body.read, if_true,
        choices.read_text proper.1, Char.reduceEq, if_false, rest.read_text proper.2 cuts,
        Body.push_pushAll, Body.pushAll_pushAll]

/-- The inside of a group is read as a part of one alternative of the group around it. -/
theorem Choices.read_text {choices : Choices} (proper : choices.Proper) (depth : Nat)
    (tail : Text) :
    Body.read (depth + 1) (choices.text ++ tail) =
      (Body.read (depth + 1) tail).pushAll choices.text := by
  match choices with
  | .last only => exact only.read_text proper (by simp) tail
  | .more first others =>
      simp only [Choices.text, List.append_assoc, List.cons_append,
        first.read_text proper.1 (by simp : depth + 1 = 0 → true = true), Body.read, Char.reduceEq,
        if_false, Nat.succ_ne_zero, and_false,
        others.read_text proper.2 depth, Body.push_pushAll, Body.pushAll_pushAll]

end

/-- The inside of a group is cut into its alternatives. -/
theorem Body.read_choices {choices : Choices} (proper : choices.Proper) (tail : Text) :
    (read 0 (choices.text ++ '}' :: tail)).alternatives = choices.toList.map Sequence.text ∧
      (read 0 (choices.text ++ '}' :: tail)).after = tail := by
  match choices with
  | .last only =>
      rw [Choices.text, only.read_text proper (fun _ => rfl)]
      simp [read, pushAll, alternatives, Choices.toList]
  | .more first others =>
      obtain ⟨alternatives_eq, after_eq⟩ := read_choices proper.2 tail
      rw [Choices.text, List.append_assoc, first.read_text proper.1 (fun _ => rfl)]
      simp only [List.cons_append, read, Char.reduceEq, if_false, and_self, if_true]
      exact ⟨by simp [pushAll, cut, alternatives, Choices.toList, ← alternatives_eq], after_eq⟩

/-! ## The first group -/

theorem bne_of_not_mem {c d : Char} {text : Text} (absent : d ∉ text) (held : c ∈ text) :
    (c != d) = true :=
  bne_iff_ne.2 fun same => absent (same ▸ held)

theorem findGroup_of_not_mem {text : Text} (absent : '{' ∉ text) : findGroup text = none := by
  unfold findGroup
  rw [List.dropWhile_eq_nil_iff.2 fun c held => bne_of_not_mem absent held]

theorem findGroup_append {before inside : Text} (absent : '{' ∉ before) :
    findGroup (before ++ '{' :: inside) =
      some ⟨before, (Body.read 0 inside).alternatives, (Body.read 0 inside).after⟩ := by
  have passes : ∀ c ∈ before, (c != '{') = true := fun c held => bne_of_not_mem absent held
  unfold findGroup
  rw [List.dropWhile_append_of_pos passes, List.takeWhile_append_of_pos passes]
  simp

theorem emptyFrom_eq_none_iff {position : Nat} {alternatives : List Text} :
    emptyFrom position alternatives = none ↔ ∀ alternative ∈ alternatives, alternative ≠ [] := by
  induction alternatives generalizing position with
  | nil => simp [emptyFrom]
  | cons alternative others ih =>
      by_cases empty : alternative = []
      · simp [emptyFrom, empty]
      · simp [emptyFrom, empty, ih]

/-- A text without braces has no group. -/
theorem firstGroup_text_of_plain {letters : Text} (proper : (Sequence.plain letters).Proper false) :
    firstGroup letters = .ok none := by
  have paired := unpaired?_text proper
  rw [Sequence.text_plain] at paired
  rw [firstGroup, paired, findGroup_of_not_mem (Sequence.proper_plain_iff.1 proper).1]

/-- The first group of a tree is found, with the texts of its alternatives. -/
theorem findGroup_text_of_group {before : Text} {choices : Choices} {rest : Sequence}
    (proper : (Sequence.grouped before choices rest).Proper false) :
    findGroup (Sequence.grouped before choices rest).text =
      some ⟨before, choices.toList.map Sequence.text, rest.text⟩ := by
  obtain ⟨⟨noOpening, -⟩, choicesProper, -⟩ := Sequence.proper_grouped_iff.1 proper
  obtain ⟨alternatives_eq, after_eq⟩ := Body.read_choices choicesProper rest.text
  rw [Sequence.text_grouped, findGroup_append noOpening, alternatives_eq, after_eq]

theorem firstGroup_text_of_group {before : Text} {choices : Choices} {rest : Sequence}
    (proper : (Sequence.grouped before choices rest).Proper false)
    (filled : ∀ choice ∈ choices.toList, choice.text ≠ []) :
    firstGroup (Sequence.grouped before choices rest).text =
      .ok (some ⟨before, choices.toList.map Sequence.text, rest.text⟩) := by
  have noEmpty : emptyFrom (before.length + 1) (choices.toList.map Sequence.text) = none :=
    emptyFrom_eq_none_iff.2 (by simpa using filled)
  rw [firstGroup, unpaired?_text proper, findGroup_text_of_group proper]
  simp [Group.start, noEmpty]

theorem firstGroup_text_of_empty {before : Text} {choices : Choices} {rest : Sequence}
    (proper : (Sequence.grouped before choices rest).Proper false)
    (empty : ∃ choice ∈ choices.toList, choice.text = []) :
    ∃ position, firstGroup (Sequence.grouped before choices rest).text =
      .error (.emptyAlternative position) := by
  obtain ⟨choice, held, nothing⟩ := empty
  rw [firstGroup, unpaired?_text proper, findGroup_text_of_group proper]
  cases found : emptyFrom (before.length + 1) (choices.toList.map Sequence.text) with
  | some position => exact ⟨position, by simp [Group.start, found]⟩
  | none =>
      have noEmpty := emptyFrom_eq_none_iff.1 found choice.text (List.mem_map_of_mem held)
      exact absurd nothing noEmpty

/-! ## Every text with paired braces has a tree -/

/-- Change the first alternative. -/
def Choices.onFirst (change : Sequence → Sequence) : Choices → Choices
  | .last only => .last (change only)
  | .more first others => .more (change first) others

theorem Choices.text_onFirst {change : Sequence → Sequence} (start : Text)
    (grows : ∀ tree, (change tree).text = start ++ tree.text) (choices : Choices) :
    (choices.onFirst change).text = start ++ choices.text := by
  cases choices <;> simp [onFirst, text, grows]

theorem Choices.proper_onFirst {change : Sequence → Sequence} {choices : Choices}
    (keeps : ∀ tree, tree.Proper true → (change tree).Proper true) (proper : choices.Proper) :
    (choices.onFirst change).Proper := by
  cases choices with
  | last only => exact keeps only proper
  | more first others => exact ⟨keeps first proper.1, proper.2⟩

/-- If the braces open before a text are closed in it, the text starts with the inside of the
innermost group. -/
theorem exists_choices_of_unpairedFrom {position opening : Nat} {outer : List Nat} (text : Text)
    (paired : unpairedFrom position (opening :: outer) text = none) :
    ∃ choices : Choices, ∃ tail position', choices.Proper ∧ text = choices.text ++ '}' :: tail ∧
      unpairedFrom position' outer tail = none := by
  match text with
  | [] => cases paired
  | c :: rest =>
      by_cases opens : c = '{'
      · -- The inside of a deeper group, then what follows it in this one.
        subst opens
        obtain ⟨inner, between, position', innerProper, rfl, paired'⟩ :=
          exists_choices_of_unpairedFrom rest (by simpa [unpairedFrom] using paired)
        obtain ⟨choices, tail, position'', proper, rfl, paired''⟩ :=
          exists_choices_of_unpairedFrom between paired'
        refine ⟨choices.onFirst (.group inner), tail, position'',
          Choices.proper_onFirst (fun tree held => ⟨innerProper, held⟩) proper, ?_, paired''⟩
        rw [Choices.text_onFirst ('{' :: (inner.text ++ ['}'])) (by simp [Sequence.text])]
        simp
      · by_cases closes : c = '}'
        · subst closes
          exact ⟨.last .done, rest, position + 1, trivial, rfl,
            by simpa [unpairedFrom] using paired⟩
        · have paired' : unpairedFrom (position + 1) (opening :: outer) rest = none := by
            simpa [unpairedFrom, opens, closes] using paired
          obtain ⟨choices, tail, position', proper, rfl, ended⟩ :=
            exists_choices_of_unpairedFrom rest paired'
          by_cases comma : c = ','
          · subst comma
            exact ⟨.more .done choices, tail, position', ⟨trivial, proper⟩, rfl, ended⟩
          · refine ⟨choices.onFirst (.char c), tail, position',
              Choices.proper_onFirst (fun tree held => ⟨opens, closes, fun _ => comma, held⟩) proper,
              ?_, ended⟩
            rw [Choices.text_onFirst [c] (by simp [Sequence.text])]
            simp
termination_by text.length

/-- **A text whose braces are paired is the text of a tree.** -/
theorem exists_proper_of_unpairedFrom {position : Nat} (text : Text)
    (paired : unpairedFrom position [] text = none) :
    ∃ tree : Sequence, tree.Proper false ∧ tree.text = text := by
  match text with
  | [] => exact ⟨.done, trivial, rfl⟩
  | c :: rest =>
      by_cases opens : c = '{'
      · subst opens
        obtain ⟨choices, tail, position', proper, rfl, paired'⟩ :=
          exists_choices_of_unpairedFrom rest (by simpa [unpairedFrom] using paired)
        obtain ⟨tree, others, rfl⟩ := exists_proper_of_unpairedFrom tail paired'
        exact ⟨.group choices tree, ⟨proper, others⟩, rfl⟩
      · by_cases closes : c = '}'
        · subst closes
          simp [unpairedFrom] at paired
        · have paired' : unpairedFrom (position + 1) [] rest = none := by
            simpa [unpairedFrom, opens, closes] using paired
          obtain ⟨tree, others, rfl⟩ := exists_proper_of_unpairedFrom rest paired'
          exact ⟨.char c tree, ⟨opens, closes, by simp, others⟩, rfl⟩
termination_by text.length

theorem exists_proper_of_firstGroup {text : Text} {group : Option Group}
    (found : firstGroup text = .ok group) : ∃ tree : Sequence, tree.Proper false ∧ tree.text = text := by
  unfold firstGroup at found
  split at found
  · cases found
  · rename_i paired
    exact exists_proper_of_unpairedFrom text paired

/-! ## One tree only -/

mutual

/-- A text is read in one way. -/
theorem Sequence.text_injective {a b : Sequence} {inside : Bool} (properA : a.Proper inside)
    (properB : b.Proper inside) (same : a.text = b.text) : a = b := by
  match a, b with
  | .done, .done => rfl
  | .done, .char _ _ => cases same
  | .done, .group _ _ => cases same
  | .char _ _, .done => cases same
  | .group _ _, .done => cases same
  | .char c rest, .group _ _ => exact absurd (List.cons.inj same).1 properA.1
  | .group _ _, .char c rest => exact absurd (List.cons.inj same).1.symm properB.1
  | .char c rest, .char d rest' =>
      obtain ⟨rfl, others⟩ := List.cons.inj same
      rw [rest.text_injective properA.2.2.2 properB.2.2.2 others]
  | .group choices rest, .group choices' rest' =>
      -- The scan of the group finds the alternatives and what follows, the same for both.
      have inner := (List.cons.inj same).2
      obtain ⟨alternatives_eq, after_eq⟩ := Body.read_choices properA.1 rest.text
      obtain ⟨alternatives_eq', after_eq'⟩ := Body.read_choices properB.1 rest'.text
      rw [inner] at alternatives_eq after_eq
      rw [rest.text_injective properA.2 properB.2 (after_eq.symm.trans after_eq'),
        choices.texts_injective properA.1 properB.1 (alternatives_eq.symm.trans alternatives_eq')]

/-- Alternatives are read in one way. -/
theorem Choices.texts_injective {a b : Choices} (properA : a.Proper) (properB : b.Proper)
    (same : a.toList.map Sequence.text = b.toList.map Sequence.text) : a = b := by
  match a, b with
  | .last only, .last only' =>
      rw [only.text_injective properA properB (List.cons.inj same).1]
  | .last _, .more _ others =>
      exact absurd (List.map_eq_nil_iff.1 (List.cons.inj same).2.symm) others.toList_ne_nil
  | .more _ others, .last _ =>
      exact absurd (List.map_eq_nil_iff.1 (List.cons.inj same).2) others.toList_ne_nil
  | .more first others, .more first' others' =>
      rw [first.text_injective properA.1 properB.1 (List.cons.inj same).1,
        others.texts_injective properA.2 properB.2 (List.cons.inj same).2]

end

/-- A text has at most one tree. -/
theorem Sequence.Reads.unique {raw : Text} {a b : Sequence} (left : a.Reads raw)
    (right : b.Reads raw) : a = b :=
  a.text_injective left.proper right.proper (left.text_eq.trans right.text_eq.symm)

end Braces

end Pkgsrc
