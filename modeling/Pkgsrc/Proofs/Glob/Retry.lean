/-
# Pkgsrc.Proofs.Glob.Retry -- one point of return is enough

A cursor remembers its last star only.  An earlier star is never asked to take more, and it
need not be: between two stars every token takes exactly one character, so a match in which
the earlier star takes more comes to the later star with fewer characters left
(`exists_left_of_promises`), and the later star can take what was skipped (`hope_star_iff`).

`Hope` says what a cursor may still come to: its own tokens match what it has left, or its last
star takes at least one more character.  Every move keeps the hope or, where it ends, answers
it (`step_settles`), so a whole run decides whether the tokens match
(`matchTokens_eq_true_iff`).
-/
import Pkgsrc.Glob.Cursor
import Pkgsrc.Glob.Matches

namespace Pkgsrc

set_option autoImplicit false

namespace Glob

/-! ## Matching, token by token -/

@[simp] theorem matches_nil_iff {text : Text} : Matches [] text ↔ text = [] := by
  constructor
  · rintro ⟨⟩; rfl
  · rintro rfl; exact .nil

@[simp] theorem matches_single_cons_iff {test : CharTest} {tokens : List Token} {c : Char}
    {text : Text} :
    Matches (.single test :: tokens) (c :: text) ↔
      test.accepts c = true ∧ Matches tokens text := by
  constructor
  · rintro (_ | ⟨accepted, rest⟩); exact ⟨accepted, rest⟩
  · rintro ⟨accepted, rest⟩; exact .single accepted rest

@[simp] theorem not_matches_single_nil {test : CharTest} {tokens : List Token} :
    ¬ Matches (.single test :: tokens) [] := by
  rintro ⟨⟩

/-- A star takes nothing, or one character and goes on. -/
theorem matches_star_cons_iff {tokens : List Token} {c : Char} {text : Text} :
    Matches (.star :: tokens) (c :: text) ↔
      Matches tokens (c :: text) ∨ Matches (.star :: tokens) text := by
  constructor
  · rintro (_ | _ | rest | more)
    · exact Or.inl rest
    · exact Or.inr more
  · rintro (rest | more)
    · exact .rest rest
    · exact .more more

/-- At the end of the text a star is as good as nothing. -/
theorem matches_star_nil_iff {tokens : List Token} :
    Matches (.star :: tokens) [] ↔ Matches tokens [] := by
  constructor
  · rintro (_ | _ | rest); exact rest
  · exact .rest

/-- Only stars match the empty text. -/
theorem matches_empty_iff (tokens : List Token) :
    Matches tokens [] ↔ tokens.all (· == .star) = true := by
  induction tokens with
  | nil => simp
  | cons token tokens ih =>
      cases token with
      | star => simpa [matches_star_nil_iff] using ih
      | single test => simp

/-- A star may take any characters first. -/
theorem matches_star_append {tokens : List Token} {text : Text} (taken : Text)
    (held : Matches (.star :: tokens) text) : Matches (.star :: tokens) (taken ++ text) := by
  induction taken with
  | nil => exact held
  | cons c taken ih => exact .more ih

/-- Tests take one character each. -/
theorem exists_append_of_matches_singles {passed : List CharTest} {tokens : List Token}
    {text : Text} (held : Matches (passed.map .single ++ tokens) text) :
    ∃ taken left, text = taken ++ left ∧ taken.length = passed.length ∧ Matches tokens left := by
  induction passed generalizing text with
  | nil => exact ⟨[], text, rfl, rfl, held⟩
  | cons test passed ih =>
      cases text with
      | nil => simp at held
      | cons c text =>
          obtain ⟨taken, left, rfl, counted, rest⟩ := ih (matches_single_cons_iff.1 held).2
          exact ⟨c :: taken, left, rfl, by simp [counted], rest⟩

/-! ## What a cursor may still come to -/

/-- The star takes one more character, and what follows it matches the rest. -/
def Retry.Promises : Retry → Prop
  | ⟨_, []⟩ => False
  | ⟨tokens, _ :: rest⟩ => Matches (.star :: tokens) rest

/-- A star takes nothing, or it takes more. -/
theorem matches_or_promises_iff {tokens : List Token} {text : Text} :
    Matches tokens text ∨ Retry.Promises ⟨tokens, text⟩ ↔ Matches (.star :: tokens) text := by
  cases text with
  | nil => simp [Retry.Promises, matches_star_nil_iff]
  | cons c text => simp [Retry.Promises, matches_star_cons_iff]

namespace Cursor

/-- Since its last star the cursor has passed tests only, with one character for each. -/
def SinceStar (cursor : Cursor) : Prop :=
  ∀ point ∈ cursor.retry, ∃ passed : List CharTest, ∃ taken : Text,
    point.tokens = passed.map .single ++ cursor.tokens ∧
      point.text = taken ++ cursor.text ∧ taken.length = passed.length

/-- The tokens match what is left, from here or after a return to the last star. -/
def Hope (cursor : Cursor) : Prop :=
  Matches cursor.tokens cursor.text ∨ ∃ point ∈ cursor.retry, point.Promises

theorem sinceStar_start (tokens : List Token) (text : Text) : (start tokens text).SinceStar := by
  rintro point ⟨⟩

theorem hope_start_iff {tokens : List Token} {text : Text} :
    (start tokens text).Hope ↔ Matches tokens text := by
  simp [start, Hope]

/-- A cursor that stands right after its star. -/
theorem sinceStar_of_retry_self {tokens : List Token} {text : Text} {behind} :
    SinceStar ⟨tokens, text, some ⟨tokens, text⟩, behind⟩ := by
  rintro point ⟨⟩
  exact ⟨[], [], rfl, rfl, rfl⟩

theorem hope_retry_self_iff {tokens : List Token} {text : Text} {behind} :
    Hope ⟨tokens, text, some ⟨tokens, text⟩, behind⟩ ↔ Matches (.star :: tokens) text := by
  rw [← matches_or_promises_iff]
  simp [Hope]

/-- A match after a return to the last star comes to the cursor's tokens with fewer characters
left than the cursor has. -/
theorem exists_left_of_promises {cursor : Cursor} {point : Retry} (since : cursor.SinceStar)
    (held : point ∈ cursor.retry) (promised : point.Promises) :
    ∃ c skipped left, cursor.text = c :: (skipped ++ left) ∧ Matches cursor.tokens left := by
  obtain ⟨passed, taken, tokens_eq, text_eq, counted⟩ := since point held
  obtain ⟨tokens, _ | ⟨first, rest⟩⟩ := point
  · exact promised.elim
  obtain ⟨skipped, left, rfl, after⟩ := matches_star_iff.1 promised
  cases tokens_eq
  obtain ⟨taken', left', rfl, counted', final⟩ := exists_append_of_matches_singles after
  -- Both walks take one character for each passed test, so the later one is further on.
  have whole : taken ++ cursor.text = (first :: skipped ++ taken') ++ left' := by
    rw [← text_eq]; simp
  rcases List.append_eq_append_iff.1 whole with ⟨front, longer, text_eq'⟩ | ⟨front, longer, -⟩
  · have lengths := congrArg List.length longer
    simp only [List.length_append, List.length_cons] at lengths
    cases front with
    | nil => rw [List.length_nil] at lengths; omega
    | cons c front => exact ⟨c, front, left', text_eq', final⟩
  · have lengths := congrArg List.length longer
    simp only [List.length_append, List.length_cons] at lengths
    omega

/-- At a star a return to an earlier star gains nothing: this star can take what it skips. -/
theorem hope_star_iff {tokens : List Token} {text : Text} {retry : Option Retry} {behind}
    (since : SinceStar ⟨.star :: tokens, text, retry, behind⟩) :
    Hope ⟨.star :: tokens, text, retry, behind⟩ ↔ Matches (.star :: tokens) text := by
  constructor
  · rintro (found | ⟨point, held, promised⟩)
    · exact found
    · obtain ⟨c, skipped, left, rfl, found⟩ := exists_left_of_promises since held promised
      rw [← List.cons_append]
      exact matches_star_append _ found
  · exact Or.inl

/-- At the end of the text a return gains nothing: no star could take more. -/
theorem hope_nil_iff {tokens : List Token} {retry : Option Retry} {behind}
    (since : SinceStar ⟨tokens, [], retry, behind⟩) :
    Hope ⟨tokens, [], retry, behind⟩ ↔ Matches tokens [] := by
  constructor
  · rintro (found | ⟨point, held, promised⟩)
    · exact found
    · obtain ⟨c, skipped, left, text_eq, -⟩ := exists_left_of_promises since held promised
      cases text_eq
  · exact Or.inl

/-! ## Moves -/

/-- What a move must do: keep the hope if it goes on, and answer it if it ends. -/
def Settles (cursor : Cursor) : Progress → Prop
  | .moved next => next.SinceStar ∧ (next.Hope ↔ cursor.Hope)
  | .finished accepted => accepted = true ↔ cursor.Hope

/-- Where the tokens do not match, a return settles what is left to hope for. -/
theorem comeBack_settles {cursor : Cursor} (mismatch : ¬ Matches cursor.tokens cursor.text) :
    cursor.Settles (comeBack cursor.retry) := by
  obtain ⟨tokens, text, retry, behind⟩ := cursor
  match retry with
  | none => simpa [comeBack, Settles, Hope] using mismatch
  | some ⟨_, []⟩ => simpa [comeBack, Settles, Hope, Retry.Promises] using mismatch
  | some ⟨after, _ :: rest⟩ =>
      refine ⟨sinceStar_of_retry_self, ?_⟩
      rw [hope_retry_self_iff]
      simpa [Hope, Retry.Promises] using fun found => absurd found mismatch

/-- Every move settles what the cursor hopes for. -/
theorem step_settles {cursor : Cursor} (since : cursor.SinceStar) :
    cursor.Settles cursor.step := by
  obtain ⟨tokens, text, retry, behind⟩ := cursor
  cases text with
  | nil => simp only [step, Settles, hope_nil_iff since, matches_empty_iff]
  | cons c text =>
      cases tokens with
      | nil => exact comeBack_settles (by simp)
      | cons token tokens =>
          cases token with
          | star =>
              refine ⟨sinceStar_of_retry_self, ?_⟩
              rw [hope_retry_self_iff, hope_star_iff since]
          | single test =>
              by_cases accepted : test.accepts c = true
              · simp only [step, accepted, if_true]
                refine ⟨fun point held => ?_, by simp [Hope, accepted]⟩
                obtain ⟨passed, taken, tokens_eq, text_eq, counted⟩ := since point held
                exact ⟨passed ++ [test], taken ++ [c], by simp [tokens_eq], by simp [text_eq],
                  by simp [counted]⟩
              · simp only [step, accepted]
                exact comeBack_settles (by simp [accepted])

/-- A run accepts exactly what its cursor may hope for. -/
theorem run_eq_true_iff_hope {cursor : Cursor} (since : cursor.SinceStar) :
    cursor.run = true ↔ cursor.Hope := by
  induction cursor using run.induct with
  | case1 cursor accepted ended =>
      have settled := step_settles since
      rw [ended] at settled
      rw [run, ended]
      exact settled
  | case2 cursor next moved ih =>
      have settled := step_settles since
      rw [moved] at settled
      rw [run, moved]
      exact (ih settled.1).trans settled.2

end Cursor

/-- **Matching with one point of return decides what the tokens stand for.** -/
theorem matchTokens_eq_true_iff {tokens : List Token} {text : Text} :
    matchTokens tokens text = true ↔ Matches tokens text :=
  (Cursor.run_eq_true_iff_hope (Cursor.sinceStar_start tokens text)).trans Cursor.hope_start_iff

end Glob

end Pkgsrc
