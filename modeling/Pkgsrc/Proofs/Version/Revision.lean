/-
# Pkgsrc.Proofs.Version.Revision -- a revision makes a version newer

A revision is announced by the letters `nb` at the end of a version.  It is read twice: as what
follows the last `nb`, and as components.  Whatever the version ends in, its components stay as
they are up to a word at the end, if there is one; that word takes the letters `nb`, or they are a
word by themselves, and the number of the revision comes last (`exists_components_revised`).

So a word has grown where the version ended, which makes it newer, and two revisions of one
version differ in their last component only.  No `nb` can be found later than the announced one,
since only digits follow (`afterLast?_revised`).
-/
import Pkgsrc.PkgName
import Pkgsrc.Proofs.Version.Lexicographic
import Pkgsrc.Proofs.Version.Runs

namespace Pkgsrc

set_option autoImplicit false

/-- Digits that a number can be written with. -/
structure Decimal.Numeral (digits : Text) : Prop where
  nonempty : digits ≠ []
  areDigits : ∀ c ∈ digits, c.isDigit = true
  short : digits.length ≤ digitLimit

namespace Version

/-- The version with the digits of a revision behind it. -/
def revised (version digits : Text) : Text :=
  version ++ (['n', 'b'] ++ digits)

/-! ## Runs -/

theorem runs_numeral {digits : Text} (numeral : Decimal.Numeral digits) :
    runs digits = [.digits digits] :=
  @runs_of_pure (.digits digits) ⟨numeral.nonempty, numeral.areDigits⟩

theorem runs_word {word : Text} (nonempty : word ≠ []) (noDigits : ∀ c ∈ word, c.isDigit = false) :
    runs word = [.other word] :=
  @runs_of_pure (.other word) ⟨nonempty, noDigits⟩

theorem runs_word_append_numeral {word digits : Text} (nonempty : word ≠ [])
    (noDigits : ∀ c ∈ word, c.isDigit = false) (numeral : Decimal.Numeral digits) :
    runs (word ++ digits) = [.other word, .digits digits] := by
  have cut : ∀ c ∈ word.getLast?, ∀ d ∈ digits.head?, d.isDigit ≠ c.isDigit := by
    intro c last d first
    simp [noDigits c (List.mem_of_mem_getLast? last),
      numeral.areDigits d (List.mem_of_mem_head? first)]
  rw [runs_append cut, runs_word nonempty noDigits, runs_numeral numeral]
  rfl

/-- A version ends in a word, which may be empty, and nothing else or a digit comes before it. -/
theorem exists_word_at_end (version : Text) :
    ∃ start word, version = start ++ word ∧ (∀ c ∈ start.getLast?, c.isDigit = true) ∧
      ∀ c ∈ word, c.isDigit = false := by
  refine ⟨version.rdropWhile (!·.isDigit), version.rtakeWhile (!·.isDigit),
    List.rdropWhile_append_rtakeWhile.symm, ?_, ?_⟩
  · intro c last
    obtain ⟨nonempty, rfl⟩ := List.mem_getLast?_eq_getLast last
    simpa using List.rdropWhile_last_not _ version nonempty
  · intro c held
    simpa using List.mem_rtakeWhile_imp held

section Cut

variable {start word digits : Text} (before : ∀ c ∈ start.getLast?, c.isDigit = true)
include before

/-- A dot ends no version whose last character is a digit. -/
theorem dot_not_mem_getLast?_runs : .other ['.'] ∉ (runs start).getLast? := by
  intro last
  have ends : (Run.other ['.']).text = [] ++ ['.'] := rfl
  have digit := before '.' (getLast?_eq_of_runs last ends)
  cases digit

variable (noDigits : ∀ c ∈ word, c.isDigit = false)
include noDigits

theorem runs_append_word : runs (start ++ word) = runs start ++ runs word := by
  apply runs_append
  intro c last d first
  simp [before c last, noDigits d (List.mem_of_mem_head? first)]

theorem significant_runs_append_word (nonempty : word ≠ []) :
    significant (runs (start ++ word)) = significant (runs start) ++ [.other word] := by
  rw [runs_append_word before noDigits, runs_word nonempty noDigits]
  exact significant_append (dot_not_mem_getLast?_runs before) fun _ => rfl

theorem significant_runs_revised (numeral : Decimal.Numeral digits) :
    significant (runs (revised (start ++ word) digits)) =
      significant (runs start) ++ [.other (word ++ ['n', 'b']), .digits digits] := by
  have shape : revised (start ++ word) digits = start ++ ((word ++ ['n', 'b']) ++ digits) := by
    simp [revised]
  have longer : ∀ c ∈ word ++ ['n', 'b'], c.isDigit = false := by
    intro c held
    rcases List.mem_append.1 held with inside | letter
    · exact noDigits c inside
    · rcases List.mem_pair.1 letter with rfl | rfl <;> rfl
  have noDot : Run.other (word ++ ['n', 'b']) ≠ .other ['.'] := by
    intro dot
    have lengths := congrArg List.length (Run.other.inj dot)
    simp at lengths
  rw [shape, runs_append, runs_word_append_numeral (by simp) longer numeral]
  · exact significant_append (dot_not_mem_getLast?_runs before) fun dot => absurd dot noDot
  · intro c last d first
    have letter : d ∈ word ++ ['n', 'b'] := by
      rw [List.head?_append_of_ne_nil _ (by simp)] at first
      exact List.mem_of_mem_head? first
    simp [before c last, longer d letter]

end Cut

/-! ## Components -/

/-- **What a revision adds to the components of a version.** -/
theorem exists_components_revised {version : Text} (within : Decimal.Within version) :
    ∃ shared word,
      (components version = .ok shared ∧ word = [] ∨
        components version = .ok (shared ++ [.word word])) ∧
      ∀ digits, Decimal.Numeral digits →
        components (revised version digits) =
          .ok (shared ++ [.word (word ++ ['n', 'b']), .number (Decimal.value digits)]) := by
  obtain ⟨start, word, rfl, before, noDigits⟩ := exists_word_at_end version
  obtain ⟨shared, read⟩ :=
    components_isOk_iff.2 (within.of_infix (List.infix_append' [] start word))
  refine ⟨shared, word, ?_, ?_⟩
  · by_cases empty : word = []
    · subst empty
      exact Or.inl ⟨by simpa using read, rfl⟩
    · refine Or.inr ?_
      rw [components] at read
      rw [components, significant_runs_append_word before noDigits empty, List.mapM_append, read]
      rfl
  · intro digits numeral
    have number : Decimal.read digits = .ok (Decimal.value digits) :=
      Decimal.read_eq_ok_iff.2 ⟨numeral.short, rfl⟩
    rw [components] at read
    rw [components, significant_runs_revised before noDigits numeral, List.mapM_append, read]
    simp [Run.component, number, Except.map, bind, Except.bind, pure, Except.pure]

/-! ## Order -/

theorem older_revised {version digits : Text} (within : Decimal.Within version)
    (numeral : Decimal.Numeral digits) : Older version (revised version digits) := by
  obtain ⟨shared, word, read, revisedRead⟩ := exists_components_revised within
  have behind := revisedRead digits numeral
  rcases read with ⟨read, rfl⟩ | read
  · have compared := compareComponents_append_left shared []
      [.word ['n', 'b'], .number (Decimal.value digits)]
    rw [List.append_nil] at compared
    rw [Older, order_of_components read behind, Except.ok.injEq]
    exact compared
  · rw [Older, order_of_components read behind, compareComponents_append_left, compareComponents,
      Component.order, Text.compare_append_cons]
    rfl

/-- Revisions of one version are ordered by their numbers. -/
theorem order_revised {version digits digits' : Text} (within : Decimal.Within version)
    (numeral : Decimal.Numeral digits) (numeral' : Decimal.Numeral digits') :
    order (revised version digits) (revised version digits') =
      .ok (compare (Decimal.value digits) (Decimal.value digits')) := by
  obtain ⟨shared, word, -, read⟩ := exists_components_revised within
  rw [order_of_components (read digits numeral) (read digits' numeral'),
    compareComponents_append_left, compareComponents, compareComponents,
    Component.order_eq_eq_iff.2 rfl, Component.order, compareComponents_nil_left]
  simp [endAgainst]

/-! ## The revision of a name -/

theorem afterLast?_revised {digits : Text} (areDigits : ∀ c ∈ digits, c.isDigit = true)
    (version : Text) : Text.afterLast? ['n', 'b'] (revised version digits) = some digits := by
  refine Text.afterLast?_append ?_ version
  intro again
  have held : 'n' ∈ 'b' :: digits := again.subset List.mem_cons_self
  have inside : 'n' ∈ digits := by simpa using held
  cases areDigits 'n' inside

theorem revision_of_revised {name : PkgName} {version digits : Text}
    (shape : name.version = revised version digits) (numeral : Decimal.Numeral digits) :
    name.revision = .ok (some (Decimal.value digits)) := by
  have number : Decimal.read digits = .ok (Decimal.value digits) :=
    Decimal.read_eq_ok_iff.2 ⟨numeral.short, rfl⟩
  rw [PkgName.revision, shape, afterLast?_revised numeral.areDigits version]
  simp only [numeral.nonempty, ne_eq, not_false_eq_true, true_and,
    List.all_eq_true.2 numeral.areDigits, if_true, number]
  rfl

theorem revision_eq_none_iff {name : PkgName} :
    name.revision = .ok none ↔ ¬ ['n', 'b'] <:+: name.version := by
  rw [← Text.afterLast?_eq_none_iff, PkgName.revision]
  cases Text.afterLast? ['n', 'b'] name.version with
  | none => simp
  | some digits =>
      refine iff_of_false ?_ (by simp)
      intro unrevised
      dsimp only at unrevised
      split at unrevised
      · cases read : Decimal.read digits with
        | error fault => rw [read] at unrevised; cases unrevised
        | ok number => rw [read] at unrevised; cases unrevised
      · cases unrevised

/-- **A revision is an upgrade, and both readings of it agree.**  A version is older than every
revision of it, and its revisions are ordered by their numbers, which are the ones that are read
from the names.  A name has no revision exactly when no `nb` occurs in its version. -/
theorem revisions_are_upgrades :
    (∀ base version digits digits' : Text, '-' ∉ version → Decimal.Within version →
      Decimal.Numeral digits → Decimal.Numeral digits' →
      Older version (revised version digits) ∧
      order (revised version digits) (revised version digits') =
        .ok (compare (Decimal.value digits) (Decimal.value digits')) ∧
      ∃ name, PkgName.ofText? (base ++ '-' :: revised version digits) = some name ∧
        name.version = revised version digits ∧
        name.revision = .ok (some (Decimal.value digits))) ∧
    (∀ name : PkgName, name.revision = .ok none ↔ ¬ ['n', 'b'] <:+: name.version) := by
  refine ⟨?_, fun name => revision_eq_none_iff⟩
  intro base version digits digits' noHyphen within numeral numeral'
  refine ⟨older_revised within numeral, order_revised within numeral numeral', ?_⟩
  have noHyphenRevised : '-' ∉ revised version digits := by
    intro held
    have inside : '-' ∈ digits := by simpa [revised, noHyphen] using held
    cases numeral.areDigits '-' inside
  exact ⟨⟨base, revised version digits, noHyphenRevised⟩, PkgName.ofText?_eq_some_iff.2 rfl, rfl,
    revision_of_revised rfl numeral⟩

/-- `1nb2.n`, which has a revision of its own and ends in the first of the two letters. -/
theorem revisions_behind_letters :
    let version := ['1', 'n', 'b', '2', '.', 'n']
    '-' ∉ version ∧ Decimal.Within version ∧ Decimal.Numeral ['0', '7'] ∧
      Decimal.Numeral ['1', '0'] ∧
      Older version (revised version ['0', '7']) ∧
      order (revised version ['0', '7']) (revised version ['1', '0']) = .ok (compare 7 10) ∧
      ∃ name, PkgName.ofText? (['a', '-', 'b'] ++ '-' :: revised version ['0', '7']) = some name ∧
        name.version = revised version ['0', '7'] ∧ name.revision = .ok (some 7) := by
  intro version
  have noHyphen : '-' ∉ version := by decide
  have within : Decimal.Within version := Decimal.within_of_length_le (by decide)
  have seven : Decimal.Numeral ['0', '7'] :=
    ⟨by decide, List.all_eq_true.1 (by decide), by decide⟩
  have ten : Decimal.Numeral ['1', '0'] :=
    ⟨by decide, List.all_eq_true.1 (by decide), by decide⟩
  exact ⟨noHyphen, within, seven, ten,
    revisions_are_upgrades.1 ['a', '-', 'b'] version ['0', '7'] ['1', '0'] noHyphen within seven ten⟩

end Version

end Pkgsrc
