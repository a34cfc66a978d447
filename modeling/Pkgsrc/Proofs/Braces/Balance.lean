/-
# Pkgsrc.Proofs.Braces.Balance -- braces that are balanced, and where they are not

Braces are balanced when no beginning of the text closes more of them than it opens, and the whole
text closes as many.  This is when the scan finds a partner for every brace
(`unpaired?_eq_none_iff`), and when the text has a tree (`balanced_iff_exists_tree`).

A fault in the groups of a text has a position, at which the text shows it: a brace without partner
is a brace, and behind an empty alternative stands the comma or the brace that ends it
(`shows_of_firstGroup`).
-/
import Pkgsrc.Proofs.Braces.Scan

namespace Pkgsrc

set_option autoImplicit false

namespace Braces

/-- All braces have a partner. -/
structure Balanced (text : Text) : Prop where
  closable : ∀ front, front <+: text → front.count '}' ≤ front.count '{'
  closed : text.count '}' = text.count '{'

/-! ## The scan, character by character -/

section Scan

variable (position : Nat) (rest : Text)

theorem unpairedFrom_opening (opened : List Nat) :
    unpairedFrom position opened ('{' :: rest) =
      unpairedFrom (position + 1) (position :: opened) rest := by
  simp [unpairedFrom]

theorem unpairedFrom_closing (last : Nat) (outer : List Nat) :
    unpairedFrom position (last :: outer) ('}' :: rest) =
      unpairedFrom (position + 1) outer rest := by
  simp [unpairedFrom]

/-- A closing brace has no partner where nothing is open. -/
theorem unpairedFrom_stray : unpairedFrom position [] ('}' :: rest) = some position := by
  simp [unpairedFrom]

theorem unpairedFrom_other (opened : List Nat) {c : Char} (notOpening : c ≠ '{')
    (notClosing : c ≠ '}') :
    unpairedFrom position opened (c :: rest) = unpairedFrom (position + 1) opened rest := by
  simp [unpairedFrom, notOpening, notClosing]

end Scan

/-! ## Balance and the scan -/

/-- The text closes the braces that are open before it, and its own. -/
def ClosesAll (opened : Nat) (text : Text) : Prop :=
  (∀ front, front <+: text → front.count '}' ≤ opened + front.count '{') ∧
    text.count '}' = opened + text.count '{'

/-- No beginning of the text closes more braces than are open then. -/
def Unclosed (opened : Nat) (text : Text) : Prop :=
  ∀ front, front <+: text → front.count '}' ≤ opened + front.count '{'

/-- A beginning of the text is empty, or has the first character and a beginning of the rest. -/
theorem unclosed_cons_iff {opened : Nat} {c : Char} {rest : Text} :
    Unclosed opened (c :: rest) ↔
      ∀ front, front <+: rest → (c :: front).count '}' ≤ opened + (c :: front).count '{' := by
  constructor
  · intro each front start
    exact each (c :: front) (List.cons_prefix_cons.2 ⟨rfl, start⟩)
  · intro each front start
    rcases List.prefix_cons_iff.1 start with rfl | ⟨inner, rfl, behind⟩
    · simp
    · exact each inner behind

theorem closesAll_cons_iff {opened : Nat} {c : Char} {rest : Text} :
    ClosesAll opened (c :: rest) ↔
      (∀ front, front <+: rest → (c :: front).count '}' ≤ opened + (c :: front).count '{') ∧
        (c :: rest).count '}' = opened + (c :: rest).count '{' :=
  and_congr_left fun _ => unclosed_cons_iff

theorem closesAll_opening_iff {opened : Nat} {rest : Text} :
    ClosesAll opened ('{' :: rest) ↔ ClosesAll (opened + 1) rest := by
  have opening (front : Text) : ('{' :: front).count '{' = front.count '{' + 1 ∧
      ('{' :: front).count '}' = front.count '}' := by simp
  rw [closesAll_cons_iff, ClosesAll]
  simp only [(opening _).1, (opening _).2, Nat.add_assoc, Nat.add_comm 1]

theorem closesAll_closing_iff {opened : Nat} {rest : Text} :
    ClosesAll (opened + 1) ('}' :: rest) ↔ ClosesAll opened rest := by
  have closing (front : Text) : ('}' :: front).count '}' = front.count '}' + 1 ∧
      ('}' :: front).count '{' = front.count '{' := by simp
  rw [closesAll_cons_iff, ClosesAll]
  simp only [(closing _).1, (closing _).2, Nat.add_right_comm opened 1, Nat.add_le_add_iff_right,
    Nat.add_right_cancel_iff]

/-- The brace alone closes too much. -/
theorem not_closesAll_stray (rest : Text) : ¬ ClosesAll 0 ('}' :: rest) := by
  rintro ⟨each, -⟩
  have alone := each ['}'] (List.cons_prefix_cons.2 ⟨rfl, List.nil_prefix⟩)
  simp at alone

theorem closesAll_other_iff {opened : Nat} {c : Char} {rest : Text} (notOpening : c ≠ '{')
    (notClosing : c ≠ '}') : ClosesAll opened (c :: rest) ↔ ClosesAll opened rest := by
  rw [closesAll_cons_iff, ClosesAll]
  simp only [List.count_cons_of_ne notOpening, List.count_cons_of_ne notClosing]

/-- The scan ends well where the text closes all braces. -/
theorem unpairedFrom_eq_none_iff {position : Nat} {opened : List Nat} {text : Text} :
    unpairedFrom position opened text = none ↔ ClosesAll opened.length text := by
  induction text generalizing position opened with
  | nil => cases opened <;> simp [unpairedFrom, ClosesAll]
  | cons c rest ih =>
      by_cases opens : c = '{'
      · subst opens
        rw [unpairedFrom_opening, ih, closesAll_opening_iff, List.length_cons]
      by_cases closes : c = '}'
      · subst closes
        cases opened with
        | nil =>
            rw [unpairedFrom_stray]
            exact iff_of_false (by simp) (not_closesAll_stray rest)
        | cons last outer =>
            rw [unpairedFrom_closing, ih, List.length_cons, closesAll_closing_iff]
      · rw [unpairedFrom_other position rest opened opens closes, ih,
          closesAll_other_iff opens closes]

theorem unpaired?_eq_none_iff {text : Text} : unpaired? text = none ↔ Balanced text := by
  rw [unpaired?, unpairedFrom_eq_none_iff, ClosesAll]
  simp only [List.length_nil, Nat.zero_add]
  exact ⟨fun ⟨closable, closed⟩ => ⟨closable, closed⟩, fun ⟨closable, closed⟩ => ⟨closable, closed⟩⟩

/-- **The braces of a text are balanced when it is the text of a tree.** -/
theorem balanced_iff_exists_tree {text : Text} :
    Balanced text ↔ ∃ tree : Sequence, tree.Proper false ∧ tree.text = text := by
  rw [← unpaired?_eq_none_iff]
  constructor
  · exact exists_proper_of_unpairedFrom text
  · rintro ⟨tree, proper, rfl⟩
    exact unpaired?_text proper

theorem firstGroup_of_not_balanced {text : Text} (unbalanced : ¬ Balanced text) :
    ∃ position, firstGroup text = .error (.unbalanced position) := by
  rw [← unpaired?_eq_none_iff] at unbalanced
  obtain ⟨position, found⟩ := Option.ne_none_iff_exists'.1 unbalanced
  exact ⟨position, by rw [firstGroup, found]⟩

theorem firstGroup_ne_unbalanced {text : Text} (balanced : Balanced text) (position : Nat) :
    firstGroup text ≠ .error (.unbalanced position) := by
  rw [firstGroup, unpaired?_eq_none_iff.2 balanced]
  dsimp only
  split
  · simp
  · split <;> simp

/-- A text with balanced braces has no group, or a first one. -/
theorem unbalanced_or_plain_or_grouped (text : Text) :
    ¬ Balanced text ∨ (Sequence.plain text).Proper false ∨
      ∃ before choices rest, (Sequence.grouped before choices rest).Proper false ∧
        (Sequence.grouped before choices rest).text = text := by
  by_cases balanced : Balanced text
  · obtain ⟨tree, proper, rfl⟩ := balanced_iff_exists_tree.1 balanced
    rcases tree.plain_or_grouped with ⟨letters, rfl⟩ | ⟨before, choices, rest, rfl⟩
    · rw [Sequence.text_plain]
      exact .inr (.inl proper)
    · exact .inr (.inr ⟨before, choices, rest, proper, rfl⟩)
  · exact .inl balanced

/-- A text without a first group is one without braces. -/
theorem no_braces_of_firstGroup {text : Text} (found : firstGroup text = .ok none) :
    '{' ∉ text ∧ '}' ∉ text := by
  rcases unbalanced_or_plain_or_grouped text with
    unbalanced | proper | ⟨before, choices, rest, proper, rfl⟩
  · obtain ⟨position, failed⟩ := firstGroup_of_not_balanced unbalanced
    cases found.symm.trans failed
  · exact Sequence.proper_plain_iff.1 proper
  · by_cases nonempty : ∀ choice ∈ choices.toList, choice.text ≠ []
    · cases found.symm.trans (firstGroup_text_of_group proper nonempty)
    · obtain ⟨position, failed⟩ := firstGroup_text_of_empty proper (by simpa using nonempty)
      cases found.symm.trans failed

/-! ## Where a fault shows -/

/-- The text shows the fault at its position. -/
def Fault.ShowsIn (text : Text) : Fault → Prop
  | .unbalanced position => text[position]? = some '{' ∨ text[position]? = some '}'
  | .emptyAlternative position => text[position]? = some ',' ∨ text[position]? = some '}'

/-- A brace without partner is a brace. -/
theorem shows_of_unpairedFrom (front : Text) {text : Text} {opened : List Nat} {position : Nat}
    (held : ∀ place ∈ opened, (front ++ text)[place]? = some '{')
    (found : unpairedFrom front.length opened text = some position) :
    (Fault.unbalanced position).ShowsIn (front ++ text) := by
  induction text generalizing front opened with
  | nil => exact .inl (held position (List.mem_of_head? found))
  | cons c rest ih =>
      have whole : front ++ c :: rest = (front ++ [c]) ++ rest := by simp
      have next : front.length + 1 = (front ++ [c]).length := by simp
      have here : (front ++ c :: rest)[front.length]? = some c := by simp
      by_cases opens : c = '{'
      · subst opens
        rw [unpairedFrom_opening, next] at found
        rw [whole] at held here ⊢
        exact ih _ (List.forall_mem_cons.2 ⟨here, held⟩) found
      by_cases closes : c = '}'
      · subst closes
        cases opened with
        | nil =>
            rw [unpairedFrom_stray] at found
            cases found
            exact .inr here
        | cons last outer =>
            rw [unpairedFrom_closing, next] at found
            rw [whole] at held ⊢
            exact ih _ (List.forall_mem_cons.1 held).2 found
      · rw [unpairedFrom_other _ _ _ opens closes, next] at found
        rw [whole] at held ⊢
        exact ih _ held found

/-- Behind an empty alternative stands what ends it. -/
theorem shows_of_emptyFrom {front : Text} (tail : Text) {choices : Choices} {position : Nat}
    (found : emptyFrom front.length (choices.toList.map Sequence.text) = some position) :
    (Fault.emptyAlternative position).ShowsIn (front ++ (choices.text ++ '}' :: tail)) := by
  match choices with
  | .last only =>
      rw [Choices.toList, List.map_singleton, emptyFrom] at found
      split at found
      · rename_i empty
        cases found
        exact .inr (by simp [Choices.text, empty])
      · cases found
  | .more first others =>
      rw [Choices.toList, List.map_cons, emptyFrom] at found
      split at found
      · rename_i empty
        cases found
        exact .inl (by simp [Choices.text, empty])
      · have next : front.length + first.text.length + 1 = (front ++ first.text ++ [',']).length := by
          simp only [List.length_append, List.length_singleton]
        rw [next] at found
        have later := shows_of_emptyFrom tail found
        simpa [Choices.text] using later

/-- **A fault in the groups of a text shows at its position.** -/
theorem shows_of_firstGroup {text : Text} {fault : Fault} (failed : firstGroup text = .error fault) :
    fault.ShowsIn text := by
  cases unpaired : unpaired? text with
  | some position =>
      rw [firstGroup, unpaired] at failed
      cases failed
      exact shows_of_unpairedFrom [] (by simp) unpaired
  | none =>
      obtain ⟨tree, proper, rfl⟩ := balanced_iff_exists_tree.1 (unpaired?_eq_none_iff.1 unpaired)
      rcases tree.plain_or_grouped with ⟨letters, rfl⟩ | ⟨before, choices, rest, rfl⟩
      · rw [Sequence.text_plain, firstGroup_text_of_plain proper] at failed
        cases failed
      · rw [firstGroup, unpaired, findGroup_text_of_group proper] at failed
        simp only [Group.start] at failed
        split at failed
        · rename_i position found
          cases failed
          have next : before.length + 1 = (before ++ ['{']).length := by simp
          rw [next] at found
          rw [Sequence.text_grouped]
          have shown := shows_of_emptyFrom rest.text found
          simpa using shown
        · cases failed

end Braces

end Pkgsrc
