/-
# Pkgsrc.Proofs.Glob.Walk -- a cursor in positions

A cursor holds what remains of the tokens and of the candidate.  The same walk can be told by
four numbers: the positions in the tokens and in the candidate, the position of the last star,
and the mark in the candidate that a return to this star goes on from.  `Walk.step` moves those
numbers, and has an outcome of its own, `starTested`, for a star that is asked whether it
accepts a character.

A walk shows a cursor when its positions are those of what remains (`Walk.Shows`).  Walk and
cursor move together (`shows_of_step`), so a walk ends as the cursor's run does
(`exists_after_eq_finished`).
-/
import Pkgsrc.Proofs.Glob.Retry

namespace Pkgsrc

set_option autoImplicit false

namespace Glob

/-- What a token says of a character; a star has no answer. -/
def Token.test? : Token → Char → Option Bool
  | .star, _ => none
  | .single test, c => some (test.accepts c)

/-- Positions in the tokens and in the candidate. -/
structure Walk where
  token : Nat
  char : Nat
  /-- The position of the last star. -/
  star : Option Nat
  /-- Where in the candidate the last star would stop if it took nothing more. -/
  mark : Nat
  deriving DecidableEq, Repr

namespace Walk

/-- The outcome of one move. -/
inductive Progress where
  | moved (walk : Walk)
  | finished (accepted : Bool)
  /-- A star was asked whether it accepts a character. -/
  | starTested
  deriving DecidableEq, Repr

/-- The start of a walk. -/
def start : Walk :=
  ⟨0, 0, none, 0⟩

/-- Return to the token after the last star, with the mark one character further on. -/
def comeBack (walk : Walk) : Progress :=
  match walk.star with
  | none => .finished false
  | some star => .moved ⟨star + 1, walk.mark + 1, some star, walk.mark + 1⟩

/-- One move over given tokens and a given candidate. -/
def step (tokens : List Token) (text : Text) (walk : Walk) : Progress :=
  match text[walk.char]?, tokens[walk.token]? with
  | none, _ => .finished ((tokens.drop walk.token).all (· == .star))
  | some _, none => walk.comeBack
  | some c, some token =>
    if token = .star then .moved ⟨walk.token + 1, walk.char, some walk.token, walk.char⟩
    else
      match token.test? c with
      | none => .starTested
      | some true => .moved ⟨walk.token + 1, walk.char + 1, walk.star, walk.mark⟩
      | some false => walk.comeBack

/-- What a walk has come to after so many moves. -/
def after (tokens : List Token) (text : Text) : Nat → Progress
  | 0 => .moved start
  | moves + 1 =>
    match after tokens text moves with
    | .moved walk => walk.step tokens text
    | ended => ended

/-! ## No star is tested -/

theorem comeBack_ne_starTested (walk : Walk) : walk.comeBack ≠ .starTested := by
  unfold comeBack
  split <;> simp

theorem step_ne_starTested (tokens : List Token) (text : Text) (walk : Walk) :
    walk.step tokens text ≠ .starTested := by
  unfold step
  split
  · simp
  · exact walk.comeBack_ne_starTested
  · rename_i c token _ _
    cases token with
    | star => simp
    | single test =>
        cases accepted : test.accepts c with
        | true => simp [Token.test?, accepted]
        | false => simpa [Token.test?, accepted] using walk.comeBack_ne_starTested

theorem after_ne_starTested (tokens : List Token) (text : Text) (moves : Nat) :
    after tokens text moves ≠ .starTested := by
  induction moves with
  | zero => simp [after]
  | succ moves ih =>
      simp only [after]
      split
      · exact step_ne_starTested tokens text _
      · exact ih

/-! ## Walks and cursors -/

/-- The positions are those of what remains. -/
structure Shows (tokens : List Token) (text : Text) (walk : Walk) (cursor : Cursor) : Prop where
  tokens_eq : cursor.tokens = tokens.drop walk.token
  text_eq : cursor.text = text.drop walk.char
  retry_eq : cursor.retry =
    walk.star.map fun star => ⟨tokens.drop (star + 1), text.drop walk.mark⟩

theorem shows_start (tokens : List Token) (text : Text) :
    Shows tokens text start (Cursor.start tokens text) :=
  ⟨rfl, rfl, rfl⟩

/-- How the outcome of a move of the cursor shows in the walk. -/
def ShowsProgress (tokens : List Token) (text : Text) :
    Progress → Glob.Progress → Prop
  | .moved walk, .moved cursor => Shows tokens text walk cursor
  | .finished a, .finished b => a = b
  | _, _ => False

theorem getElem?_of_drop_eq_cons {α : Type} {all rest : List α} {position : Nat} {a : α}
    (left : a :: rest = all.drop position) :
    all[position]? = some a ∧ rest = all.drop (position + 1) := by
  constructor
  · rw [← List.head?_drop, ← left, List.head?_cons]
  · rw [← List.tail_drop, ← left, List.tail_cons]

theorem getElem?_of_drop_eq_nil {α : Type} {all : List α} {position : Nat}
    (left : [] = all.drop position) : all[position]? = none := by
  rw [← List.head?_drop, ← left, List.head?_nil]

/-- Before the end of the candidate, walk and cursor return alike. -/
theorem shows_of_comeBack {tokens : List Token} {text : Text} {walk : Walk} {cursor : Cursor}
    (same : Shows tokens text walk cursor) (ahead : cursor.text ≠ []) :
    ShowsProgress tokens text walk.comeBack (Cursor.comeBack cursor.retry) := by
  obtain ⟨token, char, star, mark⟩ := walk
  obtain ⟨-, -, retry_eq⟩ := same
  cases star with
  | none => simp [retry_eq, comeBack, Cursor.comeBack, ShowsProgress]
  | some star =>
      -- The star has not taken what the cursor still has before it.
      have behind := cursor.behind _ retry_eq
      cases left : text.drop mark with
      | nil =>
          rw [left] at behind
          exact absurd (List.eq_nil_of_length_eq_zero (Nat.le_zero.1 behind)) ahead
      | cons c rest =>
          obtain ⟨-, rest_eq⟩ := getElem?_of_drop_eq_cons left.symm
          simp only [retry_eq, left, Option.map_some, comeBack, Cursor.comeBack, ShowsProgress]
          exact ⟨rfl, rest_eq, by simp [rest_eq]⟩

/-- Walk and cursor move together. -/
theorem shows_of_step {tokens : List Token} {text : Text} {walk : Walk} {cursor : Cursor}
    (same : Shows tokens text walk cursor) :
    ShowsProgress tokens text (walk.step tokens text) cursor.step := by
  obtain ⟨remaining, ahead, retry, behind⟩ := cursor
  have ⟨tokens_eq, text_eq, retry_eq⟩ := same
  simp only at tokens_eq text_eq retry_eq
  cases ahead with
  | nil =>
      simp [step, getElem?_of_drop_eq_nil text_eq, Cursor.step, ShowsProgress, tokens_eq]
  | cons c rest =>
      obtain ⟨char_eq, rest_eq⟩ := getElem?_of_drop_eq_cons text_eq
      have returns := shows_of_comeBack same (by simp)
      cases remaining with
      | nil => simpa [step, char_eq, getElem?_of_drop_eq_nil tokens_eq, Cursor.step] using returns
      | cons token remaining =>
          obtain ⟨token_eq, remaining_eq⟩ := getElem?_of_drop_eq_cons tokens_eq
          cases token with
          | star =>
              simp only [step, char_eq, token_eq, Cursor.step, if_true, ShowsProgress]
              exact ⟨remaining_eq, text_eq, by simp [remaining_eq, text_eq]⟩
          | single test =>
              cases accepted : test.accepts c with
              | true =>
                  simp only [step, char_eq, token_eq, Cursor.step, Token.test?, accepted, if_true,
                    reduceCtorEq, if_false, ShowsProgress]
                  exact ⟨remaining_eq, rest_eq, retry_eq⟩
              | false =>
                  simpa [step, char_eq, token_eq, Cursor.step, Token.test?, accepted] using returns

/-- A walk ends, and as the run of the cursor that it shows. -/
theorem exists_after_eq_finished {tokens : List Token} {text : Text} {walk : Walk}
    {cursor : Cursor} (moves : Nat) (here : after tokens text moves = .moved walk)
    (same : Shows tokens text walk cursor) :
    ∃ total, after tokens text total = .finished cursor.run := by
  induction cursor using Cursor.run.induct generalizing walk moves with
  | case1 cursor accepted ended =>
      have shown := shows_of_step same
      rw [ended] at shown
      refine ⟨moves + 1, ?_⟩
      rw [Cursor.run, ended]
      simp only [after, here]
      cases outcome : walk.step tokens text <;> simp_all [ShowsProgress]
  | case2 cursor next moved ih =>
      have shown := shows_of_step same
      rw [moved] at shown
      rw [Cursor.run, moved]
      cases outcome : walk.step tokens text with
      | moved walk' =>
          rw [outcome] at shown
          exact ih (moves + 1) (by simp only [after, here, outcome]) shown
      | finished accepted => rw [outcome] at shown; exact shown.elim
      | starTested => rw [outcome] at shown; exact shown.elim

end Walk

/-- **Matching is sound and complete, always ends, and tests no star.** -/
theorem matchTokens_decides_matches (tokens : List Token) (text : Text) :
    (matchTokens tokens text = true ↔ Matches tokens text) ∧
      (∃ moves, Walk.after tokens text moves = .finished (matchTokens tokens text)) ∧
      ∀ moves, Walk.after tokens text moves ≠ .starTested :=
  ⟨matchTokens_eq_true_iff, Walk.exists_after_eq_finished 0 rfl (Walk.shows_start tokens text),
    Walk.after_ne_starTested tokens text⟩

end Glob

end Pkgsrc
