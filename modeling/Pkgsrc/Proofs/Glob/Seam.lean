/-
# Pkgsrc.Proofs.Glob.Seam -- one glob behind another

The reader of a glob looks one character ahead, for what a backslash escapes and for a hyphen in
a set.  It never looks past the `]` of a set, so a glob that ends in no open escape is read in
the same way whatever follows it (`readTokens_append`).  Only the star that it may end in meets
the star that the next glob may start with: the two are one (`Token.joined`).

Tokens behind tokens match a text that can be cut between them (`matches_append_iff`), and the
lost star changes nothing (`matches_joined_iff`).  So one glob behind another accepts a text
that can be cut into a part for each (`accepts_append_iff`).
-/
import Pkgsrc.Glob
import Pkgsrc.Proofs.Glob.Retry
import Pkgsrc.Proofs.Results

namespace Pkgsrc

set_option autoImplicit false

namespace Glob

/-! ## Open escapes -/

/-- The number of backslashes at the end of a text. -/
def backslashesAtEnd (text : Text) : Nat :=
  (text.reverse.takeWhile (· == '\\')).length

/-- The text ends in a backslash that is not itself escaped. -/
def EndsInEscape (text : Text) : Prop :=
  backslashesAtEnd text % 2 = 1

instance (text : Text) : Decidable (EndsInEscape text) :=
  inferInstanceAs (Decidable (_ = _))

theorem backslashesAtEnd_append_cons {c : Char} (other : c ≠ '\\') (before after : Text) :
    backslashesAtEnd (before ++ c :: after) = backslashesAtEnd after := by
  have stops : (c :: before.reverse).takeWhile (· == '\\') = [] := by simp [other]
  have shape : (before ++ c :: after).reverse = after.reverse ++ c :: before.reverse := by simp
  rw [backslashesAtEnd, shape, List.takeWhile_append, stops]
  split
  · rename_i whole
    rw [List.append_nil, backslashesAtEnd, whole]
  · rfl

/-- What stands behind another character, or behind an escaped one, decides. -/
theorem endsInEscape_append_cons {c : Char} (other : c ≠ '\\') (before after : Text) :
    EndsInEscape (before ++ c :: after) ↔ EndsInEscape after := by
  rw [EndsInEscape, backslashesAtEnd_append_cons other, EndsInEscape]

theorem endsInEscape_escaped_cons (c : Char) (rest : Text) :
    EndsInEscape ('\\' :: c :: rest) ↔ EndsInEscape rest := by
  by_cases other : c = '\\'
  · subst other
    have shape : ('\\' :: '\\' :: rest).reverse = rest.reverse ++ ['\\', '\\'] := by simp
    have two : ['\\', '\\'].takeWhile (· == '\\') = ['\\', '\\'] := by decide
    rw [EndsInEscape, EndsInEscape, backslashesAtEnd, shape, List.takeWhile_append, two]
    split
    · rename_i whole
      rw [List.length_append, backslashesAtEnd, whole]
      simp
    · rfl
  · exact endsInEscape_append_cons other ['\\'] rest

/-! ## Reading what stands in front -/

theorem readChar_append (c : Char) {rest : Text} (more : rest ≠ []) (tail : Text) :
    readChar c (rest ++ tail) = ((readChar c rest).1, (readChar c rest).2 ++ tail) := by
  obtain ⟨d, rest, rfl⟩ := List.exists_cons_of_ne_nil more
  by_cases escapes : c = '\\' <;> simp [readChar, escapes]

/-- A member of a set ends where it does as long as the rest of the set is there. -/
theorem memberFrom_append (low : Char) {rest : Text} (closing : ']' ∈ (memberFrom low rest).2)
    (tail : Text) :
    memberFrom low (rest ++ tail) = ((memberFrom low rest).1, (memberFrom low rest).2 ++ tail) := by
  match rest with
  | [] => simp [memberFrom] at closing
  | [c] =>
      obtain rfl : ']' = c := by simpa [memberFrom] using closing
      simp [memberFrom]
  | c :: d :: rest =>
      by_cases hyphen : c = '-'
      · subst hyphen
        by_cases last : d = ']'
        · simp [memberFrom, last]
        · have more : rest ≠ [] := by
            rintro rfl
            simp [memberFrom, last, readChar] at closing
          simp [memberFrom, last, readChar_append d more]
      · simp [memberFrom, hyphen]

theorem readMember_append (c : Char) {rest : Text} (closing : ']' ∈ (readMember c rest).2)
    (tail : Text) :
    readMember c (rest ++ tail) = ((readMember c rest).1, (readMember c rest).2 ++ tail) := by
  have more : rest ≠ [] := by
    rintro rfl
    simp [readMember, readChar, memberFrom] at closing
  rw [readMember, readMember, readChar_append c more]
  exact memberFrom_append _ closing tail

theorem readMembers_append {start : Bool} {text after : Text} {ranges : List CharRange}
    (read : readMembers start text = .ok (ranges, after)) (tail : Text) :
    readMembers start (text ++ tail) = .ok (ranges, after ++ tail) := by
  fun_induction readMembers start text generalizing ranges after with
  | case1 => cases read
  | case2 start c rest closing =>
      cases read
      rw [List.cons_append, readMembers, if_pos closing]
  | case3 => cases read
  | case4 => cases read
  | case5 start c rest closing ordered inner after' found ih =>
      cases read
      -- the members that follow end in the `]`, so it is not a part of this one
      have closed : ']' ∈ (readMember c rest).2 :=
        (suffix_of_readMembers found).subset List.mem_cons_self
      rw [List.cons_append, readMembers, if_neg closing, readMember_append c closed,
        if_neg ordered, ih found]

theorem readNegation_append {text : Text} (more : text ≠ []) (tail : Text) :
    readNegation (text ++ tail) = ((readNegation text).1, (readNegation text).2 ++ tail) := by
  obtain ⟨c, text, rfl⟩ := List.exists_cons_of_ne_nil more
  by_cases exclamation : c = '!'
  · simp [readNegation, exclamation]
  · by_cases caret : c = '^'
    · simp [readNegation, caret]
    · simp [readNegation, exclamation, caret]

theorem readSet_append {text after : Text} {set : CharSet}
    (read : readSet text = .ok (set, after)) (tail : Text) :
    readSet (text ++ tail) = .ok (set, after ++ tail) := by
  have more : text ≠ [] := by
    rintro rfl
    cases List.suffix_nil.1 (suffix_of_readSet read)
  unfold readSet at read
  split at read
  · cases read
  · rename_i ranges after' found
    cases read
    rw [readSet, readNegation_append more, readMembers_append found]

/-! ## The seam -/

/-- Tokens behind tokens, where a star at the seam is not repeated. -/
def Token.joined (left right : List Token) : List Token :=
  if left.getLast? = some .star ∧ right.head? = some .star then left ++ right.tail
  else left ++ right

theorem joined_nil (right : List Token) : Token.joined [] right = right := by
  simp [Token.joined]

theorem joined_cons_cons (token next : Token) (left right : List Token) :
    Token.joined (token :: next :: left) right = token :: Token.joined (next :: left) right := by
  simp only [Token.joined, List.getLast?_cons_cons]
  split <;> rfl

theorem joined_single_cons (test : CharTest) (left right : List Token) :
    Token.joined (.single test :: left) right = .single test :: Token.joined left right := by
  cases left with
  | nil => simp [Token.joined]
  | cons next left => exact joined_cons_cons (.single test) next left right

theorem exists_joined_cons (token : Token) (left right : List Token) :
    ∃ others, Token.joined (token :: left) right = token :: others := by
  unfold Token.joined
  split <;> exact ⟨_, rfl⟩

/-- A star in front does not see the seam, or it is at the seam itself. -/
theorem joined_starThen (left right : List Token) :
    Token.joined (Token.starThen left) right = Token.starThen (Token.joined left right) := by
  match left with
  | [] =>
      match right with
      | [] => rfl
      | .star :: _ => rfl
      | .single _ :: _ => rfl
  | .star :: left =>
      obtain ⟨others, shape⟩ := exists_joined_cons .star left right
      rw [Token.starThen, shape, Token.starThen]
  | .single test :: left =>
      have kept : Token.starThen (.single test :: left) = .star :: .single test :: left := rfl
      rw [kept, joined_cons_cons, joined_single_cons]
      rfl

/-- A glob that ends in no open escape is read in the same way in front of any other. -/
theorem readTokens_append {front : Text} {left : List Token} (read : readTokens front = .ok left)
    (complete : ¬ EndsInEscape front) (back : Text) :
    readTokens (front ++ back) = (readTokens back).map (Token.joined left) := by
  fun_induction readTokens front generalizing left with
  | case1 =>
      cases read
      cases found : readTokens back <;> simp [found, Except.map, joined_nil]
  | case2 rest ih =>
      obtain ⟨others, found, rfl⟩ := map_eq_ok_iff.1 read
      have complete := mt (endsInEscape_append_cons (by decide) [] rest).2 complete
      rw [List.cons_append, readTokens_star, ih found complete,
        map_map_of_eq fun right => (joined_starThen others right).symm]
  | case3 rest notStar ih =>
      obtain ⟨others, found, rfl⟩ := map_eq_ok_iff.1 read
      have complete := mt (endsInEscape_append_cons (by decide) [] rest).2 complete
      rw [List.cons_append, readTokens_any, ih found complete,
        map_map_of_eq fun right => (joined_single_cons .any others right).symm]
  | case4 => cases read
  | case5 rest set after closed notStar notAny ih =>
      obtain ⟨others, found, rfl⟩ := map_eq_ok_iff.1 read
      have readsOn := readSet_append closed back
      obtain ⟨inside, rfl⟩ := suffix_of_readSet closed
      have complete := mt (endsInEscape_append_cons (by decide) ('[' :: inside) after).2 complete
      rw [List.cons_append, readTokens_set readsOn, ih found complete,
        map_map_of_eq fun right => (joined_single_cons (.set set) others right).symm]
  | case6 c rest notStar notAny notSet ih =>
      obtain ⟨others, found, rfl⟩ := map_eq_ok_iff.1 read
      rw [List.cons_append, readTokens_char notStar notAny notSet]
      by_cases escapes : c = '\\'
      · subst escapes
        match rest with
        -- the escape is open: it would take a character of `back`
        | [] => exact absurd (by decide) complete
        | d :: rest =>
            have complete := mt (endsInEscape_escaped_cons d rest).2 complete
            simp only [readChar, List.cons_append, if_true] at found ih ⊢
            rw [ih found complete,
              map_map_of_eq fun right => (joined_single_cons _ others right).symm]
      · have complete := mt (endsInEscape_append_cons escapes [] rest).2 complete
        rw [readChar_of_ne escapes] at found ih ⊢
        rw [readChar_of_ne escapes, ih found complete,
          map_map_of_eq fun right => (joined_single_cons _ others right).symm]

/-! ## Matching at the seam -/

/-- Tokens behind tokens match a text that can be cut between them. -/
theorem matches_append_iff {left right : List Token} {text : Text} :
    Matches (left ++ right) text ↔
      ∃ before after, before ++ after = text ∧ Matches left before ∧ Matches right after := by
  induction left generalizing text with
  | nil => simp
  | cons token left ih =>
      rw [List.cons_append]
      cases token with
      | single test =>
          constructor
          · intro held
            cases held with
            | single accepted rest =>
                obtain ⟨before, after, rfl, inFront, behind⟩ := ih.1 rest
                exact ⟨_ :: before, after, rfl, .single accepted inFront, behind⟩
          · rintro ⟨_, after, rfl, inFront, behind⟩
            cases inFront with
            | single accepted rest => exact .single accepted (ih.2 ⟨_, after, rfl, rest, behind⟩)
      | star =>
          constructor
          · intro held
            obtain ⟨taken, rest, rfl, inner⟩ := matches_star_iff.1 held
            obtain ⟨before, after, rfl, inFront, behind⟩ := ih.1 inner
            exact ⟨taken ++ before, after, List.append_assoc ..,
              matches_star_append taken (.rest inFront), behind⟩
          · rintro ⟨before, after, rfl, inFront, behind⟩
            obtain ⟨taken, rest, rfl, inner⟩ := matches_star_iff.1 inFront
            rw [List.append_assoc]
            exact matches_star_append taken (.rest (ih.2 ⟨rest, after, rfl, inner, behind⟩))

/-- Two stars side by side are as good as one. -/
theorem matches_star_star_iff {tokens : List Token} {text : Text} :
    Matches (.star :: .star :: tokens) text ↔ Matches (.star :: tokens) text := by
  constructor
  · intro held
    obtain ⟨taken, left, rfl, inner⟩ := matches_star_iff.1 held
    exact matches_star_append taken inner
  · exact .rest

/-- A star that is not repeated at the seam is not missed. -/
theorem matches_joined_iff {left right : List Token} {text : Text} :
    Matches (Token.joined left right) text ↔ Matches (left ++ right) text := by
  unfold Token.joined
  split
  · rename_i stars
    obtain ⟨front, rfl⟩ := List.getLast?_eq_some_iff.1 stars.1
    obtain ⟨others, rfl⟩ := List.head?_eq_some_iff.1 stars.2
    -- cut in front of the stars, so that they stand first on both sides
    rw [List.tail_cons, List.append_assoc, List.append_assoc, matches_append_iff, matches_append_iff]
    simp only [List.singleton_append, matches_star_star_iff]
  · rfl

/-- **One glob behind another accepts the texts that can be cut into a part for each.**  The text
of the two is a glob, and its tokens are those of the two but for a star at the seam. -/
theorem accepts_append_iff {front back : Text} {left right : Glob}
    (readFront : compile front = .ok left) (readBack : compile back = .ok right)
    (complete : ¬ EndsInEscape front) :
    ∃ whole, compile (front ++ back) = .ok whole ∧
      whole.tokens = Token.joined left.tokens right.tokens ∧
      ∀ candidate, whole.accepts candidate = true ↔
        ∃ before after, before ++ after = candidate ∧
          left.accepts before = true ∧ right.accepts after = true := by
  obtain rfl := text_of_compile readFront
  obtain rfl := text_of_compile readBack
  have read : readTokens (left.text ++ right.text) =
      .ok (Token.joined left.tokens right.tokens) := by
    rw [readTokens_append left.compiled complete, right.compiled]
    rfl
  refine ⟨_, compile_of_readTokens read, rfl, fun candidate => ?_⟩
  simp only [accepts, matchTokens_eq_true_iff]
  rw [matches_joined_iff, matches_append_iff]

/-- `[*]\\` ends in an escaped backslash, and `a*` and `*b` share a star. -/
theorem accepts_behind_backslash_and_star :
    (¬ EndsInEscape ['[', '*', ']', '\\', '\\'] ∧
      ∃ whole, compile ['[', '*', ']', '\\', '\\', '?'] = .ok whole ∧
        whole.tokens = [.single (.set ⟨[⟨'*', '*'⟩], false⟩), .single (.literal '\\'), .single .any] ∧
        whole.accepts ['*', '\\', 'x'] = true) ∧
    (¬ EndsInEscape ['a', '*'] ∧
      ∃ whole, compile ['a', '*', '*', 'b'] = .ok whole ∧
        whole.tokens = [.single (.literal 'a'), .star, .single (.literal 'b')] ∧
        whole.accepts ['a', 'x', 'b'] = true) := by
  constructor
  · have front : readTokens ['[', '*', ']', '\\', '\\'] =
        .ok [.single (.set ⟨[⟨'*', '*'⟩], false⟩), .single (.literal '\\')] := by
      have closed : readSet ['*', ']', '\\', '\\'] = .ok (⟨[⟨'*', '*'⟩], false⟩, ['\\', '\\']) := by
        simp [readSet, readNegation, readMembers, readMember, memberFrom, readChar]
      rw [readTokens_set closed, readTokens_char (by decide) (by decide) (by decide)]
      simp [readChar, readTokens, Except.map]
    have back : readTokens ['?'] = .ok [.single .any] := by simp [readTokens, Except.map]
    obtain ⟨whole, compiled, tokens_eq, accepts_iff⟩ := accepts_append_iff
      (compile_of_readTokens front) (compile_of_readTokens back) (by decide)
    refine ⟨by decide, whole, compiled, tokens_eq, (accepts_iff _).2 ⟨['*', '\\'], ['x'], rfl, ?_, ?_⟩⟩
    · exact matchTokens_eq_true_iff.2 (.single (by decide) (.single (by decide) .nil))
    · exact matchTokens_eq_true_iff.2 (.single rfl .nil)
  · have front : readTokens ['a', '*'] = .ok [.single (.literal 'a'), .star] := by
      simp [readTokens, readChar, Token.starThen, Except.map]
    have back : readTokens ['*', 'b'] = .ok [.star, .single (.literal 'b')] := by
      simp [readTokens, readChar, Token.starThen, Except.map]
    obtain ⟨whole, compiled, tokens_eq, accepts_iff⟩ := accepts_append_iff
      (compile_of_readTokens front) (compile_of_readTokens back) (by decide)
    refine ⟨by decide, whole, compiled, tokens_eq, (accepts_iff _).2 ⟨['a', 'x'], ['b'], rfl, ?_, ?_⟩⟩
    · exact matchTokens_eq_true_iff.2 (.single (by decide) (.more (.rest .nil)))
    · exact matchTokens_eq_true_iff.2 (.rest (.single (by decide) .nil))

end Glob

end Pkgsrc
