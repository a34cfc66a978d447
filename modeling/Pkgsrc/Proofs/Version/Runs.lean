/-
# Pkgsrc.Proofs.Version.Runs -- the runs of a version, told without the scan

A character in front of runs extends the first of them if it is of its kind (`push_of_alike`) and
is a run of its own otherwise (`push_of_unlike`).  So the runs of a version are pure and take turns
(`maximal_runs`), and there is no other way to cut it so (`runs_eq_iff`).  Where the kind of
characters changes, a version may be cut before its runs are taken (`runs_append`).

All runs count but the lone dots that have a run on either side.  Behind the first run,
`significantInner` either keeps a run (`significantInner_cons`) or drops a dot
(`significantInner_dot_cons`).  So no run but a dot counts otherwise for what follows it
(`significant_append`).
-/
import Pkgsrc.Version.Component
import Mathlib.Data.List.Basic

namespace Pkgsrc

set_option autoImplicit false

namespace Version

namespace Run

/-! ## Kinds of runs -/

/-- Whether a run is made of digits. -/
def isDigits : Run → Bool
  | .digits _ => true
  | .other _ => false

/-- The run of a kind with the given characters. -/
def ofKind : Bool → Text → Run
  | true, text => .digits text
  | false, text => .other text

@[simp] theorem text_ofKind (kind : Bool) (text : Text) : (ofKind kind text).text = text := by
  cases kind <;> rfl

@[simp] theorem isDigits_ofKind (kind : Bool) (text : Text) :
    (ofKind kind text).isDigits = kind := by
  cases kind <;> rfl

theorem ofKind_text (run : Run) : ofKind run.isDigits run.text = run := by
  cases run <;> rfl

/-- The run holds something, and only characters of its kind. -/
structure Pure (run : Run) : Prop where
  nonempty : run.text ≠ []
  alike : ∀ c ∈ run.text, c.isDigit = run.isDigits

/-- Every run is pure and followed by one of the other kind. -/
def Maximal : List Run → Prop
  | [] => True
  | run :: rest => run.Pure ∧ (∀ next ∈ rest.head?, next.isDigits ≠ run.isDigits) ∧ Maximal rest

theorem Maximal.pure_of_mem {rs : List Run} (maximal : Maximal rs) {run : Run}
    (held : run ∈ rs) : run.Pure := by
  induction rs with
  | nil => cases held
  | cons first rest ih =>
      obtain ⟨pure, -, others⟩ := maximal
      rcases List.mem_cons.1 held with rfl | later
      · exact pure
      · exact ih others later

/-! ## Characters in front of runs -/

theorem push_of_alike {c : Char} {run : Run} (alike : c.isDigit = run.isDigits) (rest : List Run) :
    push c (run :: rest) = ofKind run.isDigits (c :: run.text) :: rest := by
  cases run <;> simp [push, isDigits, ofKind, Run.text, alike]

theorem push_of_unlike {c : Char} {rs : List Run}
    (unlike : ∀ next ∈ rs.head?, next.isDigits ≠ c.isDigit) :
    push c rs = ofKind c.isDigit [c] :: rs := by
  rcases rs with _ | ⟨digits | other, rest⟩
  · cases kind : c.isDigit <;> simp [push, ofKind, kind]
  · have kind : c.isDigit = false := by simpa [isDigits] using unlike
    simp [push, ofKind, kind]
  · have kind : c.isDigit = true := by simpa [isDigits] using unlike
    simp [push, ofKind, kind]

theorem push_cons (c : Char) (run : Run) (rest : List Run) :
    push c (run :: rest) =
      if c.isDigit = run.isDigits then ofKind run.isDigits (c :: run.text) :: rest
      else ofKind c.isDigit [c] :: run :: rest := by
  split
  · next alike => exact push_of_alike alike rest
  · next differs => exact push_of_unlike (by simpa using Ne.symm differs)

/-- A character starts the first run, whether or not that run was there before. -/
theorem exists_push (c : Char) (rs : List Run) :
    ∃ text rest, push c rs = ofKind c.isDigit (c :: text) :: rest := by
  cases rs with
  | nil => exact ⟨[], [], push_of_unlike (by simp)⟩
  | cons run rest =>
      rw [push_cons]
      split
      · next alike => exact ⟨run.text, rest, by rw [alike]⟩
      · exact ⟨[], run :: rest, rfl⟩

theorem push_append (c : Char) {rs : List Run} (more : rs ≠ []) (rest : List Run) :
    push c (rs ++ rest) = push c rs ++ rest := by
  obtain ⟨run, rs, rfl⟩ := List.exists_cons_of_ne_nil more
  rw [List.cons_append, push_cons, push_cons]
  split <;> rfl

theorem maximal_push (c : Char) {rs : List Run} (maximal : Maximal rs) : Maximal (push c rs) := by
  cases rs with
  | nil =>
      rw [push_of_unlike (by simp)]
      exact ⟨⟨by simp, by simp⟩, by simp, trivial⟩
  | cons run rest =>
      rw [push_cons]
      split
      · next alike =>
          obtain ⟨pure, apart, others⟩ := maximal
          exact ⟨⟨by simp, by simpa [alike] using pure.alike⟩, by simpa using apart, others⟩
      · next differs =>
          exact ⟨⟨by simp, by simp⟩, by simpa using Ne.symm differs, maximal⟩

/-- A run in front of runs of which the first is of the other kind is a run of its own. -/
theorem foldr_push_of_pure {run : Run} (pure : run.Pure) {rest : List Run}
    (apart : ∀ next ∈ rest.head?, next.isDigits ≠ run.isDigits) :
    run.text.foldr push rest = run :: rest := by
  obtain ⟨nonempty, alike⟩ := pure
  suffices whole : run.text.foldr push rest = ofKind run.isDigits run.text :: rest by
    rw [whole, ofKind_text]
  generalize run.isDigits = kind at apart alike ⊢
  generalize run.text = text at nonempty alike ⊢
  induction text with
  | nil => exact absurd rfl nonempty
  | cons c text ih =>
      obtain ⟨first, others⟩ := List.forall_mem_cons.1 alike
      rw [List.foldr_cons]
      cases text with
      | nil =>
          subst first
          exact push_of_unlike apart
      | cons d more =>
          rw [ih (List.cons_ne_nil d more) others, push_of_alike (by simpa using first)]
          simp

end Run

/-! ## The runs of a version -/

theorem maximal_runs (version : Text) : Run.Maximal (runs version) := by
  induction version with
  | nil => trivial
  | cons c rest ih => exact Run.maximal_push c ih

theorem runs_flatten {rs : List Run} (maximal : Run.Maximal rs) :
    runs (rs.map Run.text).flatten = rs := by
  induction rs with
  | nil => rfl
  | cons run rest ih =>
      obtain ⟨pure, apart, others⟩ := maximal
      have after : ((rest.map Run.text).flatten).foldr Run.push [] = rest := ih others
      rw [List.map_cons, List.flatten_cons, runs, List.foldr_append, after]
      exact Run.foldr_push_of_pure pure apart

/-- **The runs of a version are the pure runs in turn that make it up.** -/
theorem runs_eq_iff {version : Text} {rs : List Run} :
    runs version = rs ↔ Run.Maximal rs ∧ (rs.map Run.text).flatten = version := by
  constructor
  · rintro rfl
    exact ⟨maximal_runs version, flatten_runs version⟩
  · rintro ⟨maximal, rfl⟩
    exact runs_flatten maximal

theorem runs_of_pure {run : Run} (pure : run.Pure) : runs run.text = [run] :=
  runs_eq_iff.2 ⟨⟨pure, by simp, trivial⟩, by simp⟩

theorem runs_cons_ne_nil (c : Char) (rest : Text) : runs (c :: rest) ≠ [] := by
  obtain ⟨text, others, shape⟩ := Run.exists_push c (runs rest)
  rw [show runs (c :: rest) = _ from shape]
  exact List.cons_ne_nil _ others

/-- Where a digit meets another character, the parts have their runs by themselves. -/
theorem runs_append {before after : Text}
    (apart : ∀ c ∈ before.getLast?, ∀ d ∈ after.head?, d.isDigit ≠ c.isDigit) :
    runs (before ++ after) = runs before ++ runs after := by
  induction before with
  | nil => rfl
  | cons c rest ih =>
      have step : runs (c :: rest ++ after) = Run.push c (runs (rest ++ after)) := rfl
      rw [step]
      cases rest with
      | nil =>
          have unlike : ∀ next ∈ (runs after).head?, next.isDigits ≠ c.isDigit := by
            cases after with
            | nil => simp [runs]
            | cons d after =>
                obtain ⟨text, others, shape⟩ := Run.exists_push d (runs after)
                rw [show runs (d :: after) = _ from shape]
                simpa using apart
          have alone : Run.push c [] = [Run.ofKind c.isDigit [c]] := Run.push_of_unlike (by simp)
          rw [show runs [c] = _ from alone]
          exact Run.push_of_unlike unlike
      | cons next rest =>
          rw [ih (by simpa using apart), Run.push_append c (runs_cons_ne_nil next rest)]
          rfl

/-- The last run ends where the version does. -/
theorem getLast?_eq_of_runs {version text : Text} {run : Run} {c : Char}
    (last : run ∈ (runs version).getLast?) (ends : run.text = text ++ [c]) :
    version.getLast? = some c := by
  obtain ⟨before, shape⟩ := List.getLast?_eq_some_iff.1 last
  have whole := flatten_runs version
  rw [shape, List.map_append, List.flatten_append] at whole
  simp [← whole, ends]

/-! ## The runs that count -/

/-- A run is kept if it is no dot, or the last one. -/
theorem significantInner_cons {run : Run} {rest : List Run}
    (counts : run = .other ['.'] → rest = []) :
    significantInner (run :: rest) = run :: significantInner rest := by
  cases rest with
  | nil => rfl
  | cons next rest =>
      have differs : run ≠ .other ['.'] := fun dot => List.cons_ne_nil next rest (counts dot)
      rw [significantInner, if_neg differs]
      exact List.cons_ne_nil next rest

theorem significantInner_dot_cons {rest : List Run} (more : rest ≠ []) :
    significantInner (.other ['.'] :: rest) = significantInner rest := by
  obtain ⟨next, rest, rfl⟩ := List.exists_cons_of_ne_nil more
  rw [significantInner, if_pos rfl]
  exact more

section Append

variable {rs rest : List Run} {run : Run} (noDot : .other ['.'] ∉ rs.getLast?)
  (counts : run = .other ['.'] → rest = [])
include noDot counts

theorem significantInner_append :
    significantInner (rs ++ run :: rest) = significantInner rs ++ run :: significantInner rest := by
  induction rs with
  | nil => exact significantInner_cons counts
  | cons first rs ih =>
      have noDotLater : .other ['.'] ∉ rs.getLast? := fun last =>
        noDot (List.mem_getLast?_cons last)
      have more : rs ++ run :: rest ≠ [] := by simp
      by_cases dot : first = .other ['.']
      · subst dot
        have inside : rs ≠ [] := by
          rintro rfl
          simp at noDot
        rw [List.cons_append, significantInner_dot_cons more, significantInner_dot_cons inside,
          ih noDotLater]
      · rw [List.cons_append, significantInner_cons fun same => absurd same dot,
          significantInner_cons fun same => absurd same dot, ih noDotLater]
        rfl

/-- Behind a run that is no dot, the runs of a version count as they do by themselves. -/
theorem significant_append :
    significant (rs ++ run :: rest) = significant rs ++ run :: significantInner rest := by
  cases rs with
  | nil => rfl
  | cons first rs =>
      have noDotLater : .other ['.'] ∉ rs.getLast? := fun last =>
        noDot (List.mem_getLast?_cons last)
      exact congrArg (first :: ·) (significantInner_append noDotLater counts)

end Append

end Version

end Pkgsrc
