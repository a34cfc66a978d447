import Pkgsrc.Glob.Token

/-!
# Pkgsrc.Glob.Cursor -- matching with one point of return

At a star a cursor remembers where it stands and lets the star take nothing; on a mismatch it
returns to the last star only, which then takes one more character.  So the work is bounded by the
tokens times the characters, however many stars there are.  A cursor never stands before the place
that its star would return to (`Cursor.behind`), which is why a return gets closer to the end.
-/

namespace Pkgsrc

set_option autoImplicit false

namespace Glob

/-- The tokens after the last star, and what the star has not taken yet. -/
structure Retry where
  tokens : List Token
  text : Text
  deriving DecidableEq, Repr

structure Cursor where
  tokens : List Token
  text : Text
  retry : Option Retry
  behind : ∀ point ∈ retry, text.length ≤ point.text.length
  deriving Repr

inductive Progress where
  | moved (cursor : Cursor)
  | finished (accepted : Bool)
  deriving Repr

namespace Cursor

def start (tokens : List Token) (text : Text) : Cursor :=
  ⟨tokens, text, none, by simp⟩

def comeBack (retry : Option Retry) : Progress :=
  match retry with
  | none => .finished false
  | some ⟨_, []⟩ => .finished false
  | some ⟨tokens, _ :: rest⟩ =>
    .moved ⟨tokens, rest, some ⟨tokens, rest⟩, by rintro point ⟨⟩; exact Nat.le_refl _⟩

/-- Where the candidate ends, only stars may be left. -/
def step (cursor : Cursor) : Progress :=
  match cursor with
  | ⟨tokens, [], _, _⟩ => .finished (tokens.all (· == .star))
  | ⟨.star :: tokens, c :: text, _, _⟩ =>
    .moved ⟨tokens, c :: text, some ⟨tokens, c :: text⟩,
      by rintro point ⟨⟩; exact Nat.le_refl _⟩
  | ⟨.single test :: tokens, c :: text, retry, behind⟩ =>
    if test.accepts c then
      .moved ⟨tokens, text, retry, fun point held => by
        have := behind point held
        simp only [List.length_cons] at this
        omega⟩
    else comeBack retry
  | ⟨[], _ :: _, retry, _⟩ => comeBack retry

/-- What a move makes smaller: first what the last star has left, then what remains ahead. -/
def effort (cursor : Cursor) : Nat × Nat :=
  (match cursor.retry with
    | none => cursor.text.length + 1
    | some point => point.text.length,
   cursor.tokens.length + cursor.text.length)

theorem effort_comeBack {retry : Option Retry} {next : Cursor}
    (moved : comeBack retry = .moved next) :
    ∃ point ∈ retry, next.effort.1 < point.text.length := by
  unfold comeBack at moved
  split at moved
  · cases moved
  · cases moved
  · cases moved
    exact ⟨_, rfl, by simp [effort]⟩

/-- Every move makes the effort smaller. -/
theorem effort_step {cursor next : Cursor} (moved : cursor.step = .moved next) :
    Prod.Lex (· < ·) (· < ·) next.effort cursor.effort := by
  obtain ⟨tokens, text, retry, behind⟩ := cursor
  cases text with
  | nil => simp [step] at moved
  | cons c text =>
    cases tokens with
    | nil =>
      simp only [step] at moved
      obtain ⟨point, held, less⟩ := effort_comeBack moved
      apply Prod.Lex.left
      cases retry with
      | none => cases held
      | some point' => cases held; simpa [effort] using less
    | cons token tokens =>
      cases token with
      | star =>
        simp only [step, Progress.moved.injEq] at moved
        subst moved
        cases retry with
        | none => apply Prod.Lex.left; simp
        | some point =>
          have le := behind point rfl
          rcases Nat.lt_or_eq_of_le le with less | same
          · apply Prod.Lex.left; simpa [effort] using less
          · simp only [effort, ← same]
            apply Prod.Lex.right
            simp
      | single test =>
        simp only [step] at moved
        split at moved
        · simp only [Progress.moved.injEq] at moved
          subst moved
          cases retry with
          | none => apply Prod.Lex.left; simp
          | some point => apply Prod.Lex.right; simp; omega
        · obtain ⟨point, held, less⟩ := effort_comeBack moved
          apply Prod.Lex.left
          cases retry with
          | none => cases held
          | some point' => cases held; simpa [effort] using less

def run (cursor : Cursor) : Bool :=
  match _moved : cursor.step with
  | .finished accepted => accepted
  | .moved next => run next
termination_by cursor.effort
decreasing_by exact effort_step _moved

end Cursor

def matchTokens (tokens : List Token) (text : Text) : Bool :=
  (Cursor.start tokens text).run

end Glob

end Pkgsrc
