/-
# Pkgsrc.Proofs.Matcher.Rounds -- the best candidate, round by round

A matcher finds the best of some candidates in rounds, one for each candidate.  What a round comes
to depends on the best candidate so far only, not on what the matcher keeps (`round`), and what
the matcher is after a round on having tried the candidate only (`run_bestFrom_cons`).  So the
whole search is a fold over the candidates (`run_best`), and leaves the matcher as it is after
trying each of them up to the first failure (`matcher_after_bestFrom`).
-/
import Pkgsrc.Proofs.Matcher.Answer

namespace Pkgsrc

set_option autoImplicit false

namespace Matcher

/-! ## One round -/

/-- The best candidate after one more that is accepted. -/
def advance (best : Option Text) (candidate : Text) : Except Matching.Fault (Option Text) :=
  match best with
  | none => .ok (some candidate)
  | some known => (Matching.ofNumber (newer known candidate)).map some

/-- The best candidate after one more. -/
def round (pattern : Text) (best : Option Text) (candidate : Text) :
    Except Matching.Fault (Option Text) :=
  match answer pattern candidate with
  | .error fault => .error fault
  | .ok true => advance best candidate
  | .ok false => .ok best

/-- The candidates that are tried: all of them up to the first round that fails. -/
def tried (pattern : Text) (best : Option Text) : List Text → List Text
  | [] => []
  | candidate :: others =>
    candidate ::
      match round pattern best candidate with
      | .error _ => []
      | .ok next => tried pattern next others

/-! ## The end of a list -/

/-- A list with one more at its end is cut there, or in what comes before. -/
theorem concat_eq_append_cons_iff {α : Type} {items earlier later : List α} {last item : α} :
    items ++ [last] = earlier ++ item :: later ↔
      (items = earlier ∧ last = item ∧ later = []) ∨
        ∃ between, later = between ++ [last] ∧ items = earlier ++ item :: between := by
  constructor
  · intro shape
    rcases List.eq_nil_or_concat later with rfl | ⟨between, final, rfl⟩
    · obtain ⟨same, ends⟩ := List.append_inj' shape rfl
      exact Or.inl ⟨same, List.singleton_inj.1 ends, rfl⟩
    · rw [List.concat_eq_append, ← List.cons_append, ← List.append_assoc] at shape
      obtain ⟨same, ends⟩ := List.append_inj' shape rfl
      rw [List.singleton_inj.1 ends, List.concat_eq_append]
      exact Or.inr ⟨between, rfl, same⟩
  · rintro (⟨rfl, rfl, rfl⟩ | ⟨between, rfl, rfl⟩)
    · rfl
    · simp

/-! ## Runs -/

theorem run_settle_bind {ε α β : Type} (result : Except ε α) (next : α → Ask ε β)
    (matcher : Matcher) :
    (settle result >>= next).run matcher =
      match result with
      | .ok value => (next value).run matcher
      | .error fault => (.error fault, matcher) := by
  rw [run_bind]
  cases result <;> rfl

/-! ## The search -/

theorem advance_of_order {known candidate : Text} {result : Ordering}
    (compared : Version.order (versionOf candidate) (versionOf known) = .ok result) :
    advance (some known) candidate =
      .ok (some (if result = .gt then candidate else known)) := by
  rw [advance, newer, compared]
  cases result <;> rfl

/-- One round, and then the others. -/
theorem run_bestFrom_cons (pattern : Text) (best : Option Text) (candidate : Text)
    (others : List Text) (matcher : Matcher) :
    (bestFrom pattern best (candidate :: others)).run matcher =
      match round pattern best candidate with
      | .error fault => (.error fault, ((accepts pattern candidate).run matcher).2)
      | .ok next =>
        (bestFrom pattern next others).run ((accepts pattern candidate).run matcher).2 := by
  have answered := run_accepts pattern candidate matcher
  rw [bestFrom.eq_def, run_bind, round]
  generalize (accepts pattern candidate).run matcher = outcome at answered ⊢
  obtain ⟨result, later⟩ := outcome
  obtain rfl : result = answer pattern candidate := answered
  rcases answer pattern candidate with fault | _ | _
  · rfl
  · rfl
  · cases best with
    | none => rfl
    | some known =>
        have settled := run_settle_bind (Matching.ofNumber (newer known candidate))
          (fun next => bestFrom pattern (some next) others) later
        simp only [advance, if_true]
        rw [settled]
        cases Matching.ofNumber (newer known candidate) <;> rfl

/-- The search is a fold over the candidates, whatever is kept. -/
theorem run_bestFrom (pattern : Text) (best : Option Text) (candidates : List Text)
    (matcher : Matcher) :
    ((bestFrom pattern best candidates).run matcher).1 = candidates.foldlM (round pattern) best := by
  induction candidates generalizing best matcher with
  | nil => rfl
  | cons candidate others ih =>
      rw [run_bestFrom_cons, List.foldlM_cons]
      cases round pattern best candidate with
      | error fault => rfl
      | ok next => exact ih next _

theorem run_best (pattern : Text) (candidates : List Text) (matcher : Matcher) :
    ((best? pattern candidates).run matcher).1 = candidates.foldlM (round pattern) none :=
  run_bestFrom pattern none candidates matcher

theorem matcher_after_bestFrom (pattern : Text) (best : Option Text) (candidates : List Text)
    (matcher : Matcher) :
    ((bestFrom pattern best candidates).run matcher).2 =
      (tried pattern best candidates).foldl
        (fun matcher candidate => ((accepts pattern candidate).run matcher).2) matcher := by
  induction candidates generalizing best matcher with
  | nil => rfl
  | cons candidate others ih =>
      rw [run_bestFrom_cons, tried, List.foldl_cons]
      cases round pattern best candidate with
      | error fault => rfl
      | ok next => exact ih next _

end Matcher

end Pkgsrc
