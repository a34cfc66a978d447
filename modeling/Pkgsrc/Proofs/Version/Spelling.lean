/-
# Pkgsrc.Proofs.Version.Spelling -- components that are written and read again

What a version has for components is easily told (`Proper`): words are not empty and hold no digit,
no two words are neighbours, and a lone dot is the first component or the last one, or else it
would have been dropped.  Every such list can be written, with a dot between numbers that are
neighbours; the runs of the text are then the components one by one and those dots
(`runs_spell`), which are just the runs that do not count (`significant_spellRuns`).
-/
import Pkgsrc.Proofs.Version.Lexicographic
import Pkgsrc.Proofs.Version.Runs
import Mathlib.Algebra.Group.Nat.Defs
import Mathlib.Data.List.Chain

namespace Pkgsrc

set_option autoImplicit false

/-! ## Numbers and their digits -/

theorem Decimal.ofDigitChars_lt {digits : Text} (areDigits : ∀ c ∈ digits, c.isDigit = true)
    (start : Nat) : Nat.ofDigitChars 10 digits start < (start + 1) * 10 ^ digits.length := by
  induction digits generalizing start with
  | nil => simp [Nat.ofDigitChars_nil]
  | cons c rest ih =>
      obtain ⟨first, others⟩ := List.forall_mem_cons.1 areDigits
      have small : c.toNat - '0'.toNat ≤ 9 :=
        Nat.sub_le_sub_right (Char.isDigit_iff_toNat.1 first).2 _
      rw [Nat.ofDigitChars_cons]
      calc
        _ < (10 * start + (c.toNat - '0'.toNat) + 1) * 10 ^ rest.length := ih others _
        _ ≤ (10 * (start + 1)) * 10 ^ rest.length := Nat.mul_le_mul_right _ (by omega)
        _ = (start + 1) * 10 ^ (rest.length + 1) := by rw [Nat.pow_succ]; ac_rfl

/-- So many digits make no greater number than so many nines. -/
theorem Decimal.value_lt {digits : Text} (areDigits : ∀ c ∈ digits, c.isDigit = true) :
    value digits < 10 ^ digits.length := by
  simpa [value] using ofDigitChars_lt areDigits 0

namespace Component

/-- Whether a component is a word. -/
def isWord : Component → Bool
  | .number _ => false
  | .word _ => true

/-- A word has to hold something, and no digit. -/
def Sound : Component → Prop
  | .number _ => True
  | .word text => text ≠ [] ∧ ∀ c ∈ text, c.isDigit = false

instance (component : Component) : Decidable component.Sound :=
  match component with
  | .number _ => inferInstanceAs (Decidable True)
  | .word text => inferInstanceAs (Decidable (text ≠ [] ∧ ∀ c ∈ text, c.isDigit = false))

/-- The run that a component is written as. -/
def run : Component → Version.Run
  | .number n => .digits (Decimal.write n)
  | .word text => .other text

end Component

namespace Version

open Component (Sound)

/-! ## The components of a version -/

/-- Words that are sound and stand apart from each other. -/
structure Legible (cs : List Component) : Prop where
  sound : ∀ c ∈ cs, c.Sound
  apart : cs.IsChain fun a b => ¬ (a.isWord = true ∧ b.isWord = true)

/-- Legible components with lone dots at either end only. -/
structure Proper (cs : List Component) : Prop extends Legible cs where
  dots : .word ['.'] ∉ cs.tail.dropLast

theorem legible_cons_iff {c : Component} {cs : List Component} :
    Legible (c :: cs) ↔
      c.Sound ∧ (∀ d ∈ cs.head?, ¬ (c.isWord = true ∧ d.isWord = true)) ∧ Legible cs := by
  constructor
  · rintro ⟨sound, apart⟩
    obtain ⟨first, others⟩ := List.forall_mem_cons.1 sound
    obtain ⟨next, chain⟩ := List.isChain_cons.1 apart
    exact ⟨first, next, others, chain⟩
  · rintro ⟨first, next, others, chain⟩
    exact ⟨List.forall_mem_cons.2 ⟨first, others⟩, List.isChain_cons.2 ⟨next, chain⟩⟩

section Run

variable {run : Run} {component : Component}

/-- A word is a component of its own kind of run. -/
theorem kind_of_component (read : run.component = .ok component) :
    component.isWord = !run.isDigits := by
  cases run with
  | digits text =>
      obtain ⟨n, -, rfl⟩ := map_eq_ok_iff.1 read
      rfl
  | other text =>
      cases read
      rfl

theorem sound_of_component (pure : run.Pure) (read : run.component = .ok component) :
    component.Sound := by
  cases run with
  | digits text =>
      obtain ⟨n, -, rfl⟩ := map_eq_ok_iff.1 read
      trivial
  | other text =>
      cases read
      exact ⟨pure.nonempty, pure.alike⟩

theorem eq_other_of_component {text : Text} (read : run.component = .ok (.word text)) :
    run = .other text := by
  cases run with
  | digits digits =>
      obtain ⟨n, -, shape⟩ := map_eq_ok_iff.1 read
      cases shape
  | other word =>
      cases read
      rfl

end Run

/-- A run in front of legible components: they start with a number where the runs behind it start
with digits. -/
theorem legible_cons {run : Run} {rest : List Run} {c : Component} {cs : List Component}
    (maximal : Run.Maximal (run :: rest)) (first : run.component = .ok c)
    (next : (significantInner rest).mapM Run.component = .ok cs) (legible : Legible cs)
    (start : ∀ after ∈ rest.head?, after.isDigits = true → ∀ d ∈ cs.head?, d.isWord = false) :
    Legible (c :: cs) := by
  obtain ⟨pure, apart, -⟩ := maximal
  refine legible_cons_iff.2 ⟨sound_of_component pure first, ?_, legible⟩
  rintro d head ⟨word, word'⟩
  cases rest with
  | nil =>
      cases next
      cases head
  | cons after rest =>
      rw [kind_of_component first, Bool.not_eq_true'] at word
      have digits : after.isDigits = true := by simpa [word] using apart after rfl
      rw [start after rfl digits d head] at word'
      cases word'

/-- The components behind the first one: a lone dot is the last of them, and they start with a
number if the runs start with digits. -/
theorem legible_of_inner {rs : List Run} (maximal : Run.Maximal rs) {cs : List Component}
    (read : (significantInner rs).mapM Run.component = .ok cs) :
    Legible cs ∧ .word ['.'] ∉ cs.dropLast ∧
      ∀ run ∈ rs.head?, run.isDigits = true → ∀ c ∈ cs.head?, c.isWord = false := by
  induction rs generalizing cs with
  | nil =>
      cases read
      exact ⟨⟨by simp, .nil⟩, by simp, by simp⟩
  | cons run rest ih =>
      by_cases dropped : run = .other ['.'] ∧ rest ≠ []
      · obtain ⟨rfl, more⟩ := dropped
        rw [significantInner_dot_cons more] at read
        obtain ⟨legible, dots, -⟩ := ih maximal.2.2 read
        exact ⟨legible, dots, by simp [Run.isDigits]⟩
      · have counts : run = .other ['.'] → rest = [] := by simpa using dropped
        rw [significantInner_cons counts, mapM_cons_eq_ok_iff] at read
        obtain ⟨c, later, first, next, rfl⟩ := read
        obtain ⟨legible, dots, start⟩ := ih maximal.2.2 next
        refine ⟨legible_cons maximal first next legible start, ?_, ?_⟩
        · cases later with
          | nil => simp
          | cons d later =>
              have noDot : c ≠ .word ['.'] := by
                rintro rfl
                -- a dot that was kept is the last run, and nothing is behind it
                rw [counts (eq_other_of_component first)] at next
                cases next
              simpa [noDot.symm] using dots
        · simp [kind_of_component first]

/-- **The components of a version are proper.** -/
theorem proper_of_components {version : Text} {cs : List Component}
    (read : components version = .ok cs) : Proper cs := by
  have maximal := maximal_runs version
  unfold components at read
  cases cut : runs version with
  | nil =>
      rw [cut] at read
      cases read
      exact ⟨⟨by simp, .nil⟩, by simp⟩
  | cons run rest =>
      rw [cut] at read maximal
      obtain ⟨c, later, first, next, rfl⟩ := mapM_cons_eq_ok_iff.1 read
      obtain ⟨legible, dots, start⟩ := legible_of_inner maximal.2.2 next
      exact ⟨legible_cons maximal first next legible start, dots⟩

/-- The numbers of a version can be written within the limit. -/
theorem lt_of_mem_components {version : Text} {cs : List Component}
    (read : components version = .ok cs) {n : Nat} (held : .number n ∈ cs) :
    n < 10 ^ Decimal.digitLimit := by
  obtain ⟨run, counts, found⟩ := exists_item_of_mapM_eq_ok read held
  cases run with
  | other text => cases found
  | digits digits =>
      obtain ⟨value, number, same⟩ := map_eq_ok_iff.1 found
      cases same
      obtain ⟨short, rfl⟩ := Decimal.read_eq_ok_iff.1 number
      have areDigits := isDigit_of_mem_runs (digits_mem_significant_iff.1 counts)
      exact Nat.lt_of_lt_of_le (Decimal.value_lt areDigits) (Nat.pow_le_pow_right (by decide) short)

/-! ## Components as they are written -/

/-- The runs that components are written as. -/
def spellRuns : List Component → List Run
  | [] => []
  | .number n :: .number m :: rest =>
      .digits (Decimal.write n) :: .other ['.'] :: spellRuns (.number m :: rest)
  | c :: rest => c.run :: spellRuns rest

theorem flatten_spellRuns (cs : List Component) :
    ((spellRuns cs).map Run.text).flatten = spell cs := by
  fun_induction spellRuns cs with
  | case1 => rfl
  | case2 n m rest ih =>
      rw [spell, ← ih]
      simp [Run.text]
  | case3 c rest apart ih =>
      rw [List.map_cons, List.flatten_cons, ih]
      cases c with
      | number n => exact (spell.eq_3 n rest fun m others => apart n m others rfl).symm
      | word text => rfl

theorem head?_spellRuns (cs : List Component) :
    (spellRuns cs).head? = cs.head?.map Component.run := by
  fun_cases spellRuns cs <;> rfl

theorem pure_run {c : Component} (sound : c.Sound) : c.run.Pure := by
  cases c with
  | number n =>
      exact ⟨Nat.toDigits_ne_nil, fun c => Nat.isDigit_of_mem_toDigits (by decide) (by decide)⟩
  | word text => exact ⟨sound.1, sound.2⟩

theorem maximal_spellRuns {cs : List Component} (legible : Legible cs) :
    Run.Maximal (spellRuns cs) := by
  fun_induction spellRuns cs with
  | case1 => trivial
  | case2 n m rest ih =>
      obtain ⟨sound, -, later⟩ := legible_cons_iff.1 legible
      have dot : (Run.other ['.']).Pure := ⟨by simp [Run.text], by simp [Run.text, Run.isDigits]⟩
      refine ⟨pure_run sound, by simp [Run.isDigits], dot, ?_, ih later⟩
      simp [head?_spellRuns, Component.run, Run.isDigits]
  | case3 c rest apart ih =>
      obtain ⟨sound, next, later⟩ := legible_cons_iff.1 legible
      refine ⟨pure_run sound, ?_, ih later⟩
      intro run head
      rw [head?_spellRuns] at head
      obtain ⟨d, start, rfl⟩ := Option.map_eq_some_iff.1 head
      obtain ⟨others, rfl⟩ := List.head?_eq_some_iff.1 start
      cases c with
      | number n =>
          cases d with
          | number m => exact absurd rfl (apart n m others rfl)
          | word text => simp [Component.run, Run.isDigits]
      | word text =>
          cases d with
          | number m => simp [Component.run, Run.isDigits]
          | word text' => exact absurd ⟨rfl, rfl⟩ (next _ start)

/-- The runs of components that are written are those that they were written as. -/
theorem runs_spell {cs : List Component} (legible : Legible cs) : runs (spell cs) = spellRuns cs :=
  runs_eq_iff.2 ⟨maximal_spellRuns legible, flatten_spellRuns cs⟩

theorem spellRuns_ne_nil {c : Component} {cs : List Component} : spellRuns (c :: cs) ≠ [] := by
  intro none
  have head := head?_spellRuns (c :: cs)
  rw [none] at head
  cases head

/-- Behind the first run, only the dots between numbers do not count. -/
theorem significantInner_spellRuns {cs : List Component} (dots : .word ['.'] ∉ cs.dropLast) :
    significantInner (spellRuns cs) = cs.map Component.run := by
  fun_induction spellRuns cs with
  | case1 => rfl
  | case2 n m rest ih =>
      have later : .word ['.'] ∉ (Component.number m :: rest).dropLast := by simpa using dots
      rw [significantInner_cons (by simp), significantInner_dot_cons spellRuns_ne_nil, ih later]
      rfl
  | case3 c rest apart ih =>
      cases rest with
      | nil => rfl
      | cons d others =>
          obtain ⟨differs, later⟩ : .word ['.'] ≠ c ∧ .word ['.'] ∉ (d :: others).dropLast := by
            simpa using dots
          have noDot : c.run ≠ .other ['.'] := by
            cases c with
            | number n => simp [Component.run]
            | word text => simpa [Component.run, eq_comm] using differs
          rw [significantInner_cons fun dot => absurd dot noDot, ih later]
          rfl

/-- The runs of components that count are the components. -/
theorem significant_spellRuns {cs : List Component} (dots : .word ['.'] ∉ cs.tail.dropLast) :
    significant (spellRuns cs) = cs.map Component.run := by
  fun_cases spellRuns cs with
  | case1 => rfl
  | case2 n m rest =>
      rw [List.tail_cons] at dots
      rw [significant, significantInner_dot_cons spellRuns_ne_nil, significantInner_spellRuns dots]
      rfl
  | case3 c rest apart =>
      rw [List.tail_cons] at dots
      rw [significant, significantInner_spellRuns dots]
      rfl

/-- A component is read back from its run, a number only within the limit. -/
theorem component_run {c : Component} (short : ∀ n, c = .number n → n < 10 ^ Decimal.digitLimit) :
    c.run.component = .ok c := by
  cases c with
  | number n =>
      have within : (Decimal.write n).length ≤ Decimal.digitLimit :=
        (Nat.length_toDigits_le_iff (by decide) (by decide)).2 (short n rfl)
      rw [Component.run, Run.component, Decimal.read_write within]
      rfl
  | word text => rfl

/-- **Proper components are read back from the text that they are written as.** -/
theorem components_spell {cs : List Component} (proper : Proper cs)
    (short : ∀ n, .number n ∈ cs → n < 10 ^ Decimal.digitLimit) :
    components (spell cs) = .ok cs := by
  rw [components, runs_spell proper.toLegible, significant_spellRuns proper.dots, mapM_eq_ok_iff,
    List.forall₂_map_left_iff, List.forall₂_same]
  intro c held
  exact component_run fun n same => short n (same ▸ held)

/-- **What the components of a version are, and how they are written.**  A version within the limit
has components, and they are proper.  Proper components whose numbers are not too long are the
components of the text that they are written as.  So a version has the components of its own
spelling, and equals it. -/
theorem components_proper_and_spelled :
    (∀ version, Decimal.Within version →
      ∃ cs, components version = .ok cs ∧ Proper cs ∧
        components (spell cs) = .ok cs ∧ Alike (spell cs) version) ∧
    (∀ cs, Proper cs → (∀ n, .number n ∈ cs → n < 10 ^ Decimal.digitLimit) →
      components (spell cs) = .ok cs) := by
  refine ⟨fun version within => ?_, fun cs => components_spell⟩
  obtain ⟨cs, read⟩ := components_isOk_iff.2 within
  have proper := proper_of_components read
  have again := components_spell proper fun n => lt_of_mem_components read
  exact ⟨cs, read, proper, again, (alike_iff again read).2 rfl⟩

/-- Dots at both ends, and a number of as many digits as there may be. -/
def dottedAndLong : List Component :=
  [.word ['.'], .number (10 ^ (Decimal.digitLimit - 1)), .number 0, .word ['n', 'b'], .number 2,
    .word ['.']]

theorem proper_dottedAndLong : Proper dottedAndLong := by
  refine ⟨⟨?_, ?_⟩, ?_⟩
  · simp [dottedAndLong, Sound, Char.isDigit]
  · simp [dottedAndLong, Component.isWord]
  · simp [dottedAndLong]

theorem lt_of_mem_dottedAndLong (n : Nat) (held : .number n ∈ dottedAndLong) :
    n < 10 ^ Decimal.digitLimit := by
  have long : 10 ^ (Decimal.digitLimit - 1) < 10 ^ Decimal.digitLimit :=
    Nat.pow_lt_pow_right (by decide) (by decide)
  have small : 10 ^ 1 < 10 ^ Decimal.digitLimit := Nat.pow_lt_pow_right (by decide) (by decide)
  simp only [dottedAndLong, List.mem_cons, Component.number.injEq, reduceCtorEq, List.not_mem_nil,
    false_or, or_false] at held
  rcases held with same | same | same <;> rw [same]
  · exact long
  · exact Nat.lt_trans (by decide) small
  · exact Nat.lt_trans (by decide) small

/-- `01.0..2.`, whose first zero and first dot are not written again; and components that are as
hard to write. -/
theorem spelling_of_dots_and_long_number :
    (Decimal.Within ['0', '1', '.', '0', '.', '.', '2', '.'] ∧
      components ['0', '1', '.', '0', '.', '.', '2', '.'] =
        .ok [.number 1, .number 0, .word ['.', '.'], .number 2, .word ['.']] ∧
      ∃ cs, components ['0', '1', '.', '0', '.', '.', '2', '.'] = .ok cs ∧ Proper cs ∧
        components (spell cs) = .ok cs ∧
        Alike (spell cs) ['0', '1', '.', '0', '.', '.', '2', '.']) ∧
    (Proper dottedAndLong ∧ (∀ n, .number n ∈ dottedAndLong → n < 10 ^ Decimal.digitLimit) ∧
      components (spell dottedAndLong) = .ok dottedAndLong) := by
  have within : Decimal.Within ['0', '1', '.', '0', '.', '.', '2', '.'] :=
    Decimal.within_of_length_le (by decide)
  exact ⟨⟨within, rfl, components_proper_and_spelled.1 _ within⟩, proper_dottedAndLong,
    lt_of_mem_dottedAndLong,
    components_proper_and_spelled.2 _ proper_dottedAndLong lt_of_mem_dottedAndLong⟩

end Version

end Pkgsrc
