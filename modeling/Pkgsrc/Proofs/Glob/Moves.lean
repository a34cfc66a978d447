/-
# Pkgsrc.Proofs.Glob.Moves -- how many moves a walk makes

A return takes both positions of a walk back, so neither of them tells how far the walk has come.
The mark does: it never goes back, and a return takes it one character further
(`mark_lt_of_mismatch`).  Between two returns every move passes a token, and a return gives up
fewer tokens than there are, so one character of the mark is worth as many moves as there are
tokens.  In this measure every move gets on (`distance_lt_of_move`), and a walk that stays in
bounds (`Walk.InBounds`) cannot get on for ever: it ends within the tokens times the characters,
each counted with the place behind the last one, however many stars there are.

A cursor makes the same moves as its walk (`shows_after`), and a glob has no more tokens than
characters (`length_le_of_readTokens`), which bounds the moves by how the glob is written
(`exists_moves_of_accepts`).
-/
import Pkgsrc.Glob
import Pkgsrc.Proofs.Glob.Walk
import Pkgsrc.Proofs.Results

namespace Pkgsrc

set_option autoImplicit false

namespace Glob

/-- What a cursor has come to after so many moves. -/
def Cursor.after (cursor : Cursor) : Nat → Progress
  | 0 => .moved cursor
  | moves + 1 =>
    match cursor.after moves with
    | .moved next => next.step
    | ended => ended

namespace Walk

variable {tokens : List Token} {text : Text} {walk next : Walk} {moves : Nat}

/-! ## What one move can be -/

/-- There is a character that no token takes: the tokens are used up, or a test refuses it. -/
def Mismatch (tokens : List Token) (text : Text) (walk : Walk) : Prop :=
  ∃ c, text[walk.char]? = some c ∧ ∀ token ∈ tokens[walk.token]?, token.test? c = some false

/-- The move that a walk makes. -/
inductive Move (tokens : List Token) (text : Text) (walk : Walk) : Walk → Prop where
  /-- A star takes nothing, and is from now on the last one. -/
  | star {c : Char} (ahead : text[walk.char]? = some c)
      (token : tokens[walk.token]? = some .star) :
      Move tokens text walk ⟨walk.token + 1, walk.char, some walk.token, walk.char⟩
  /-- A test takes the character. -/
  | single {c : Char} {test : CharTest} (ahead : text[walk.char]? = some c)
      (token : tokens[walk.token]? = some (.single test)) (accepted : test.accepts c = true) :
      Move tokens text walk ⟨walk.token + 1, walk.char + 1, walk.star, walk.mark⟩
  /-- The last star takes one more character. -/
  | back {star : Nat} (mismatch : walk.Mismatch tokens text) (known : walk.star = some star) :
      Move tokens text walk ⟨star + 1, walk.mark + 1, some star, walk.mark + 1⟩

theorem move_of_step (moved : walk.step tokens text = .moved next) :
    Move tokens text walk next := by
  have returns (mismatch : walk.Mismatch tokens text) (moved : walk.comeBack = .moved next) :
      Move tokens text walk next := by
    unfold comeBack at moved
    split at moved
    · cases moved
    · rename_i star known
      cases moved
      exact .back mismatch known
  unfold step at moved
  split at moved
  · cases moved
  · rename_i c ahead past
    exact returns ⟨c, ahead, by simp [past]⟩ moved
  · rename_i c token ahead here
    cases token with
    | star =>
        cases moved
        exact .star ahead here
    | single test =>
        cases accepted : test.accepts c with
        | true =>
            simp only [reduceCtorEq, if_false, Token.test?, accepted] at moved
            cases moved
            exact .single ahead here accepted
        | false =>
            simp only [reduceCtorEq, if_false, Token.test?, accepted] at moved
            exact returns ⟨c, ahead, by simp [here, Token.test?, accepted]⟩ moved

/-- A walk that has made one more move has made the last of them from where it was before. -/
theorem exists_move_of_after (here : after tokens text (moves + 1) = .moved next) :
    ∃ walk, after tokens text moves = .moved walk ∧ Move tokens text walk next := by
  simp only [after] at here
  split at here
  · rename_i walk there
    exact ⟨walk, there, move_of_step here⟩
  · rename_i ended
    exact absurd here (ended next)

/-! ## The mark -/

theorem mark_lt_of_mismatch (move : Move tokens text walk next)
    (mismatch : walk.Mismatch tokens text) : walk.mark < next.mark := by
  obtain ⟨c, ahead, refused⟩ := mismatch
  cases move with
  | star _ token => cases refused _ token
  | single ahead' token accepted =>
      cases ahead.symm.trans ahead'
      have := refused _ token
      simp [Token.test?, accepted] at this
  | back => exact Nat.lt_succ_self walk.mark

/-! ## Bounds -/

/-- Positions that a walk can come to. -/
structure InBounds (tokens : List Token) (text : Text) (walk : Walk) : Prop where
  token_le : walk.token ≤ tokens.length
  mark_le : walk.mark ≤ walk.char
  char_le : walk.char ≤ text.length
  /-- The last star is a star, and the walk has passed it. -/
  star_passed : ∀ star ∈ walk.star, star < walk.token ∧ tokens[star]? = some .star

theorem inBounds_start : start.InBounds tokens text where
  token_le := Nat.zero_le _
  mark_le := Nat.le_refl _
  char_le := Nat.zero_le _
  star_passed := by simp [start]

theorem inBounds_of_move (move : Move tokens text walk next)
    (bounds : walk.InBounds tokens text) : next.InBounds tokens text := by
  have ⟨token_le, mark_le, char_le, star_passed⟩ := bounds
  cases move with
  | star ahead token =>
      obtain ⟨token_lt, -⟩ := List.getElem?_eq_some_iff.1 token
      refine ⟨token_lt, Nat.le_refl _, char_le, ?_⟩
      rintro star ⟨⟩
      exact ⟨Nat.lt_succ_self _, token⟩
  | single ahead token =>
      obtain ⟨token_lt, -⟩ := List.getElem?_eq_some_iff.1 token
      obtain ⟨char_lt, -⟩ := List.getElem?_eq_some_iff.1 ahead
      refine ⟨token_lt, Nat.le_succ_of_le mark_le, char_lt, fun star known => ?_⟩
      obtain ⟨passed, isStar⟩ := star_passed star known
      exact ⟨Nat.lt_succ_of_lt passed, isStar⟩
  | @back star mismatch known =>
      obtain ⟨c, ahead, -⟩ := mismatch
      obtain ⟨char_lt, -⟩ := List.getElem?_eq_some_iff.1 ahead
      obtain ⟨passed, isStar⟩ := star_passed star known
      refine ⟨Nat.le_trans passed token_le, Nat.le_refl _,
        Nat.lt_of_le_of_lt mark_le char_lt, ?_⟩
      rintro _ ⟨⟩
      exact ⟨Nat.lt_succ_self _, isStar⟩

theorem inBounds_of_after (here : after tokens text moves = .moved walk) :
    walk.InBounds tokens text := by
  induction moves generalizing walk with
  | zero =>
      cases here
      exact inBounds_start
  | succ moves ih =>
      obtain ⟨before, there, move⟩ := exists_move_of_after here
      exact inBounds_of_move move (ih there)

/-- No move takes the mark back: a star sets it to the character ahead. -/
theorem mark_le_of_move (move : Move tokens text walk next)
    (bounds : walk.InBounds tokens text) : walk.mark ≤ next.mark := by
  cases move with
  | star => exact bounds.mark_le
  | single => exact Nat.le_refl _
  | back => exact Nat.le_succ _

/-! ## Stars -/

/-- Some earlier move was made at a star. -/
def MetStar (tokens : List Token) (text : Text) (moves : Nat) : Prop :=
  ∃ earlier < moves, ∃ walk, after tokens text earlier = .moved walk ∧
    tokens[walk.token]? = some .star

theorem metStar_succ_iff (here : after tokens text moves = .moved walk) :
    MetStar tokens text (moves + 1) ↔
      MetStar tokens text moves ∨ tokens[walk.token]? = some .star := by
  constructor
  · rintro ⟨earlier, before, other, there, isStar⟩
    rcases Nat.lt_succ_iff_lt_or_eq.1 before with before | rfl
    · exact Or.inl ⟨earlier, before, other, there, isStar⟩
    · cases there.symm.trans here
      exact Or.inr isStar
  · rintro (⟨earlier, before, met⟩ | isStar)
    · exact ⟨earlier, Nat.lt_succ_of_lt before, met⟩
    · exact ⟨moves, Nat.lt_succ_self moves, walk, here, isStar⟩

/-- A walk knows a last star once it has met one. -/
theorem isSome_star_iff_metStar (here : after tokens text moves = .moved walk) :
    walk.star.isSome ↔ MetStar tokens text moves := by
  induction moves generalizing walk with
  | zero =>
      cases here
      simp [start, MetStar]
  | succ moves ih =>
      obtain ⟨before, there, move⟩ := exists_move_of_after here
      rw [metStar_succ_iff there, ← ih there]
      cases move with
      | star _ token => simp [token]
      | single _ token => simp [token]
      | back _ known => simp [known]

/-! ## The distance -/

/-- How far a walk has come, where each character of the mark is worth all the tokens. -/
def distance (tokens : List Token) (walk : Walk) : Nat :=
  walk.mark * tokens.length + walk.token

theorem distance_lt_of_move (move : Move tokens text walk next)
    (bounds : walk.InBounds tokens text) : walk.distance tokens < next.distance tokens := by
  have marks : walk.mark * tokens.length ≤ next.mark * tokens.length :=
    Nat.mul_le_mul_right _ (mark_le_of_move move bounds)
  cases move with
  | star => exact Nat.add_lt_add_of_le_of_lt marks (Nat.lt_succ_self _)
  | single => exact Nat.add_lt_add_of_le_of_lt marks (Nat.lt_succ_self _)
  | @back star =>
      -- one character of the mark pays for all the tokens that are given up
      calc walk.mark * tokens.length + walk.token
          ≤ walk.mark * tokens.length + tokens.length := Nat.add_le_add_left bounds.token_le _
        _ = (walk.mark + 1) * tokens.length := (Nat.succ_mul _ _).symm
        _ < (walk.mark + 1) * tokens.length + (star + 1) := Nat.lt_add_of_pos_right (Nat.succ_pos _)

theorem le_distance_of_after (here : after tokens text moves = .moved walk) :
    moves ≤ walk.distance tokens := by
  induction moves generalizing walk with
  | zero => exact Nat.zero_le _
  | succ moves ih =>
      obtain ⟨before, there, move⟩ := exists_move_of_after here
      exact Nat.lt_of_le_of_lt (ih there) (distance_lt_of_move move (inBounds_of_after there))

theorem distance_le (bounds : walk.InBounds tokens text) :
    walk.distance tokens ≤ (text.length + 1) * tokens.length := by
  have mark_le : walk.mark ≤ text.length := Nat.le_trans bounds.mark_le bounds.char_le
  rw [Nat.succ_mul]
  exact Nat.add_le_add (Nat.mul_le_mul_right _ mark_le) bounds.token_le

/-! ## The end -/

/-- What has ended stays as it is. -/
theorem after_of_le {earlier : Nat} {accepted : Bool}
    (ended : after tokens text earlier = .finished accepted) (later : earlier ≤ moves) :
    after tokens text moves = .finished accepted := by
  induction later with
  | refl => exact ended
  | step _ ih => simp only [after, ih]

/-- With one more move than its longest distance a walk has ended. -/
theorem after_eq_finished (tokens : List Token) (text : Text) :
    after tokens text ((text.length + 1) * tokens.length + 1) =
      .finished (matchTokens tokens text) := by
  cases outcome : after tokens text ((text.length + 1) * tokens.length + 1) with
  | moved walk =>
      have far := le_distance_of_after outcome
      have near := distance_le (inBounds_of_after outcome)
      omega
  | starTested => exact absurd outcome (after_ne_starTested tokens text _)
  | finished accepted =>
      obtain ⟨total, ended⟩ := exists_after_eq_finished 0 rfl (shows_start tokens text)
      rcases Nat.le_total total ((text.length + 1) * tokens.length + 1) with before | behind
      · exact outcome.symm.trans (after_of_le ended before)
      · exact (after_of_le outcome behind).symm.trans ended

theorem exists_moves_le (tokens : List Token) (text : Text) :
    ∃ moves ≤ (tokens.length + 1) * (text.length + 1),
      after tokens text moves = .finished (matchTokens tokens text) := by
  refine ⟨_, ?_, after_eq_finished tokens text⟩
  calc (text.length + 1) * tokens.length + 1
      ≤ (text.length + 1) * tokens.length + (text.length + 1) :=
        Nat.add_le_add_left (Nat.succ_pos _) _
    _ = (tokens.length + 1) * (text.length + 1) := by rw [← Nat.mul_succ, Nat.mul_comm]

/-! ## The cursor's moves -/

theorem showsProgress_moved_iff {progress : Glob.Progress} :
    ShowsProgress tokens text (.moved walk) progress ↔
      ∃ cursor, progress = .moved cursor ∧ Shows tokens text walk cursor := by
  cases progress <;> simp [ShowsProgress]

theorem showsProgress_finished_iff {progress : Glob.Progress} {accepted : Bool} :
    ShowsProgress tokens text (.finished accepted) progress ↔ progress = .finished accepted := by
  cases progress <;> simp [ShowsProgress, eq_comm]

/-- Walk and cursor have come to the same after any number of moves. -/
theorem shows_after (tokens : List Token) (text : Text) (moves : Nat) :
    ShowsProgress tokens text (after tokens text moves)
      ((Cursor.start tokens text).after moves) := by
  induction moves with
  | zero => exact shows_start tokens text
  | succ moves ih =>
      simp only [after, Cursor.after]
      cases walked : after tokens text moves with
      | moved walk =>
          rw [walked, showsProgress_moved_iff] at ih
          obtain ⟨cursor, ran, same⟩ := ih
          rw [ran]
          exact shows_of_step same
      | finished accepted =>
          rw [walked, showsProgress_finished_iff] at ih
          rw [ih]
          exact rfl
      | starTested => exact absurd walked (after_ne_starTested tokens text moves)

end Walk

/-! ## Matching -/

/-- **Matching ends within the tokens times the characters**, each counted with the end.  On the way
it stays in bounds, knows its last star as soon as there is one, and takes the mark further with
every return. -/
theorem matchTokens_ends_within (tokens : List Token) (text : Text) :
    (∃ moves ≤ (tokens.length + 1) * (text.length + 1),
        Walk.after tokens text moves = .finished (matchTokens tokens text)) ∧
      (∀ moves, Walk.ShowsProgress tokens text (Walk.after tokens text moves)
        ((Cursor.start tokens text).after moves)) ∧
      ∀ moves walk, Walk.after tokens text moves = .moved walk →
        walk.InBounds tokens text ∧
        (walk.star.isSome ↔ Walk.MetStar tokens text moves) ∧
        ∀ next, walk.step tokens text = .moved next →
          walk.mark ≤ next.mark ∧ (walk.Mismatch tokens text → walk.mark < next.mark) := by
  refine ⟨Walk.exists_moves_le tokens text, Walk.shows_after tokens text,
    fun moves walk here => ?_⟩
  have bounds := Walk.inBounds_of_after here
  refine ⟨bounds, Walk.isSome_star_iff_metStar here, fun next moved => ?_⟩
  have move := Walk.move_of_step moved
  exact ⟨Walk.mark_le_of_move move bounds, Walk.mark_lt_of_mismatch move⟩

/-- `*a*b` and `caac`: the second star has taken the second `a` and takes the last `c` as well, since
neither is a `b`. -/
theorem matchTokens_of_second_star :
    let tokens : List Token := [.star, .single (.literal 'a'), .star, .single (.literal 'b')]
    let text : Text := ['c', 'a', 'a', 'c']
    let walk : Walk := ⟨3, 3, some 2, 3⟩
    let next : Walk := ⟨3, 4, some 2, 4⟩
    (∃ moves ≤ 25, Walk.after tokens text moves = .finished (matchTokens tokens text)) ∧
      Walk.after tokens text 5 = .moved walk ∧ walk.InBounds tokens text ∧
      Walk.MetStar tokens text 5 ∧ walk.step tokens text = .moved next ∧
      walk.Mismatch tokens text ∧ walk.mark < next.mark := by
  intro tokens text walk next
  have here : Walk.after tokens text 5 = .moved walk := by decide
  have moved : walk.step tokens text = .moved next := by decide
  have mismatch : walk.Mismatch tokens text := by
    refine ⟨'c', rfl, ?_⟩
    rintro token ⟨⟩
    rfl
  obtain ⟨ends, -, along⟩ := matchTokens_ends_within tokens text
  obtain ⟨bounds, met, marks⟩ := along 5 walk here
  exact ⟨ends, here, bounds, met.1 rfl, moved, mismatch, (marks next moved).2 mismatch⟩

/-! ## Written globs -/

theorem length_starThen_le (tokens : List Token) :
    (Token.starThen tokens).length ≤ tokens.length + 1 := by
  fun_cases Token.starThen tokens <;> simp

/-- A glob has no more tokens than characters. -/
theorem length_le_of_readTokens {text : Text} {tokens : List Token}
    (read : readTokens text = .ok tokens) : tokens.length ≤ text.length := by
  fun_induction readTokens text generalizing tokens with
  | case1 =>
      cases read
      exact Nat.le_refl _
  | case2 rest ih =>
      obtain ⟨others, found, rfl⟩ := map_eq_ok_iff.1 read
      exact Nat.le_trans (length_starThen_le others) (Nat.succ_le_succ (ih found))
  | case3 rest notStar ih =>
      obtain ⟨others, found, rfl⟩ := map_eq_ok_iff.1 read
      exact Nat.succ_le_succ (ih found)
  | case4 => cases read
  | case5 rest set after closed notStar notAny ih =>
      obtain ⟨others, found, rfl⟩ := map_eq_ok_iff.1 read
      have shorter := length_of_readSet closed
      exact Nat.succ_le_succ (Nat.le_trans (ih found) (Nat.le_of_lt shorter))
  | case6 c rest notStar notAny notSet ih =>
      obtain ⟨others, found, rfl⟩ := map_eq_ok_iff.1 read
      exact Nat.succ_le_succ (Nat.le_trans (ih found) (length_readChar_le c rest))

/-- **A glob decides a candidate within the characters of the one times those of the other**, each
counted with its end. -/
theorem exists_moves_of_accepts (glob : Glob) (candidate : Text) :
    ∃ moves ≤ (glob.text.length + 1) * (candidate.length + 1),
      (Cursor.start glob.tokens candidate).after moves = .finished (glob.accepts candidate) := by
  obtain ⟨moves, within, ended⟩ := Walk.exists_moves_le glob.tokens candidate
  have fewer := length_le_of_readTokens glob.compiled
  refine ⟨moves, Nat.le_trans within (Nat.mul_le_mul_right _ (Nat.succ_le_succ fewer)), ?_⟩
  have same := Walk.shows_after glob.tokens candidate moves
  rw [ended] at same
  exact Walk.showsProgress_finished_iff.1 same

end Glob

end Pkgsrc
