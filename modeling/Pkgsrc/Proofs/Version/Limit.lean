/-
# Pkgsrc.Proofs.Version.Limit -- which versions have components

A text is within the digit limit when no digits that stand next to each other in it are more
than a number may have (`Decimal.Within`).  Every part of such a text is within the limit too.

The runs of a version hold its longest stretches of digits (`exists_digits_mem_runs`), and no
run of digits is dropped from the runs that count.  So a version has components exactly when it
is within the limit (`components_isOk_iff`), and there is only one way to fail
(`components_eq_error_iff`).
-/
import Pkgsrc.Proofs.Results
import Pkgsrc.Proofs.Version.Runs
import Pkgsrc.Version.Order

namespace Pkgsrc

set_option autoImplicit false

/-- Digits that stand next to each other in the text are no more than a number may have. -/
def Decimal.Within (text : Text) : Prop :=
  ∀ digits, digits <:+: text → (∀ c ∈ digits, c.isDigit = true) → digits.length ≤ digitLimit

theorem Decimal.Within.of_infix {text part : Text} (within : Within text) (inside : part <:+: text) :
    Within part :=
  fun digits here areDigits => within digits (here.trans inside) areDigits

theorem Decimal.within_of_length_le {text : Text} (short : text.length ≤ digitLimit) :
    Within text :=
  fun _ here _ => Nat.le_trans here.length_le short

/-- A character that is no digit keeps the digits before it from those behind it. -/
theorem Decimal.Within.append_cons {before after : Text} {c : Char} (first : Within before)
    (noDigit : c.isDigit = false) (second : Within after) : Within (before ++ c :: after) := by
  rintro digits ⟨start, rest, shape⟩ areDigits
  have outside : c ∉ digits := fun held => by
    rw [areDigits c held] at noDigit
    cases noDigit
  rw [List.append_assoc] at shape
  rcases List.append_eq_append_iff.1 shape with ⟨between, rfl, cut⟩ | ⟨between, rfl, cut⟩
  · -- The digits start in front of the character.
    rcases List.append_eq_append_iff.1 cut with ⟨more, rfl, -⟩ | ⟨more, rfl, behind⟩
    · exact first _ ⟨start, more, by simp⟩ areDigits
    · cases more with
      | nil => exact first _ ⟨start, [], by simp⟩ areDigits
      | cons d more =>
          obtain ⟨rfl, -⟩ := List.cons.inj behind
          exact absurd (List.mem_append_right _ List.mem_cons_self) outside
  · -- They start at the character, or behind it.
    cases between with
    | nil =>
        cases digits with
        | nil => exact Nat.zero_le _
        | cons d digits =>
            obtain ⟨rfl, -⟩ := List.cons.inj cut
            exact absurd List.mem_cons_self outside
    | cons d between =>
        obtain ⟨-, rfl⟩ := List.cons.inj cut
        exact second _ ⟨between, rest, by simp⟩ areDigits

theorem Decimal.not_within_replicate {digit : Char} (isDigit : digit.isDigit = true) {count : Nat}
    (long : digitLimit < count) : ¬ Within (List.replicate count digit) := by
  intro within
  have bounded := within _ List.infix_rfl fun c held => by
    rw [List.eq_of_mem_replicate held]
    exact isDigit
  rw [List.length_replicate] at bounded
  omega

namespace Version

/-! ## Runs of digits -/

theorem text_infix_of_mem_runs {run : Run} {version : Text} (held : run ∈ runs version) :
    run.text <:+: version := by
  have inside := List.infix_of_mem_flatten (List.mem_map_of_mem (f := Run.text) held)
  rwa [flatten_runs] at inside

/-- A run of digits holds digits only. -/
theorem isDigit_of_mem_runs {digits version : Text} (held : .digits digits ∈ runs version) :
    ∀ c ∈ digits, c.isDigit = true :=
  ((maximal_runs version).pure_of_mem held).alike

/-- Digits at the start of a version are the start of its first run. -/
theorem exists_head_run_of_prefix {c : Char} {digits version : Text}
    (here : c :: digits <+: version) (areDigits : ∀ d ∈ c :: digits, d.isDigit = true) :
    ∃ first others, runs version = .digits first :: others ∧ digits.length < first.length := by
  induction version generalizing c digits with
  | nil => simp at here
  | cons d rest ih =>
      obtain ⟨rfl, after⟩ := List.cons_prefix_cons.1 here
      have digit : c.isDigit = true := areDigits c List.mem_cons_self
      have step : runs (c :: rest) = Run.push c (runs rest) := rfl
      cases digits with
      | nil =>
          rw [step]
          rcases runs rest with _ | ⟨first | first, others⟩ <;> simp [Run.push, digit]
      | cons d digits =>
          obtain ⟨first, others, runs_eq, longer⟩ :=
            ih after fun d held => areDigits d (List.mem_cons_of_mem _ held)
          exact ⟨c :: first, others, by simp [step, runs_eq, Run.push, digit],
            by simpa using longer⟩

/-- A run of a text goes on as a run, at least as long, when one more character stands before. -/
theorem exists_mem_push {c : Char} {rs : List Run} {digits : Text} (held : .digits digits ∈ rs) :
    ∃ longer, .digits longer ∈ Run.push c rs ∧ digits.length ≤ longer.length := by
  rcases rs with _ | ⟨first | first, others⟩
  · cases held
  · rcases List.mem_cons.1 held with same | held
    · cases same
      by_cases digit : c.isDigit = true
      · exact ⟨c :: digits, by simp [Run.push, digit], by simp⟩
      · exact ⟨digits, by simp [Run.push, digit], Nat.le_refl _⟩
    · refine ⟨digits, ?_, Nat.le_refl _⟩
      by_cases digit : c.isDigit = true <;> simp [Run.push, digit, held]
  · have held : .digits digits ∈ others := by simpa using held
    refine ⟨digits, ?_, Nat.le_refl _⟩
    by_cases digit : c.isDigit = true <;> simp [Run.push, digit, held]

/-- Every stretch of digits lies in a run of digits. -/
theorem exists_digits_mem_runs {c : Char} {digits version : Text}
    (here : c :: digits <:+: version) (areDigits : ∀ d ∈ c :: digits, d.isDigit = true) :
    ∃ run, .digits run ∈ runs version ∧ digits.length < run.length := by
  induction version with
  | nil => simp at here
  | cons d rest ih =>
      rcases List.infix_cons_iff.1 here with atStart | later
      · obtain ⟨first, others, runs_eq, longer⟩ := exists_head_run_of_prefix atStart areDigits
        exact ⟨first, by simp [runs_eq], longer⟩
      · obtain ⟨run, held, longer⟩ := ih later
        obtain ⟨run', held', longer'⟩ := exists_mem_push (c := d) held
        exact ⟨run', held', Nat.lt_of_lt_of_le longer longer'⟩

theorem within_iff_forall_mem_runs {version : Text} :
    Decimal.Within version ↔
      ∀ digits, .digits digits ∈ runs version → digits.length ≤ Decimal.digitLimit := by
  constructor
  · intro within digits held
    exact within digits (text_infix_of_mem_runs held) (isDigit_of_mem_runs held)
  · intro short digits here areDigits
    cases digits with
    | nil => exact Nat.zero_le _
    | cons c digits =>
        obtain ⟨run, held, longer⟩ := exists_digits_mem_runs here areDigits
        exact Nat.le_trans longer (short run held)

/-! ## Components -/

/-- Only lone dots are dropped. -/
theorem digits_mem_significant_iff {digits : Text} {rs : List Run} :
    .digits digits ∈ significant rs ↔ .digits digits ∈ rs := by
  have inner : ∀ rs : List Run, .digits digits ∈ significantInner rs ↔ .digits digits ∈ rs := by
    intro rs
    fun_induction significantInner rs <;> simp_all
  cases rs with
  | nil => rfl
  | cons first rest => simp [significant, inner]

/-- **A version has components exactly when it is within the digit limit.** -/
theorem components_isOk_iff {version : Text} :
    (∃ read, components version = .ok read) ↔ Decimal.Within version := by
  rw [within_iff_forall_mem_runs]
  unfold components
  rw [exists_mapM_eq_ok_iff]
  constructor
  · intro each digits held
    obtain ⟨component, found⟩ := each _ (digits_mem_significant_iff.2 held)
    refine Nat.le_of_not_lt fun longer => ?_
    have fails := Decimal.read_eq_error_iff.2 longer
    simp [Run.component, fails, Except.map] at found
  · rintro short (digits | text) held
    · have within := short digits (digits_mem_significant_iff.1 held)
      exact ⟨_, by simp [Run.component, Decimal.read, within, Except.map]; rfl⟩
    · exact ⟨_, rfl⟩

theorem components_eq_error_iff {version : Text} :
    components version = .error .tooManyDigits ↔ ¬ Decimal.Within version := by
  rw [← components_isOk_iff]
  cases components version with
  | ok read => simp
  | error fault => cases fault; simp

end Version

end Pkgsrc
