/-
# Pkgsrc.Proofs.Glob.Reading -- the reader follows the spelling

The reader looks at most one character ahead, and what it finds is the sign, the member or the
piece that fits in front of the rest.  A piece that fits is read in front of anything
(`readTokens_text_append_of_fits`).

A text has a spelling, or pieces up to the bracket of a set that has none
(`Piece.spelled_or_stuck`): the members of that set go on to the end of the text, or come to a
range that ends before it starts (`Member.Fails`).  In the one case the reader returns the tokens
of the spelling, in the other it reports the bracket (`compile_decides_spelling`).
-/
import Pkgsrc.Glob
import Pkgsrc.Proofs.Glob.Spelling
import Pkgsrc.Proofs.Results

namespace Pkgsrc

set_option autoImplicit false

namespace Glob

/-! ## Signs -/

theorem readChar_of_fits {sign : Sign} {after : Text} (fits : sign.Fits after) :
    readChar sign.head (sign.tail ++ after) = (sign.char, after) := by
  cases sign with
  | plain c =>
      by_cases backslash : c = '\\'
      · subst backslash
        obtain rfl := fits rfl
        rfl
      · exact readChar_of_ne backslash after
  | escaped c => simp [readChar, Sign.head, Sign.tail, Sign.char]

/-! ## Members -/

theorem memberFrom_of_alone {rest : Text} (alone : ¬ ContinuesRange rest) (low : Char) :
    memberFrom low rest = (⟨low, low⟩, rest) := by
  fun_cases memberFrom low rest with
  | case1 => rfl
  | case2 d rest further => exact absurd ⟨d, rest, rfl, further⟩ alone
  | case3 => rfl

theorem memberFrom_of_further {d : Char} (further : d ≠ ']') (low : Char) (rest : Text) :
    memberFrom low ('-' :: d :: rest) = (⟨low, (readChar d rest).1⟩, (readChar d rest).2) := by
  rw [memberFrom, if_neg further]

/-- A member that fits is read, in front of whatever follows. -/
theorem readMember_of_fits {start : Bool} {member : Member} {after : Text}
    (fits : member.Fits start after) :
    ∃ c rest, member.text ++ after = c :: rest ∧ (c = ']' → start = true) ∧
      readMember c rest = (member.chars, after) := by
  cases fits with
  | @single sign inside signFits alone =>
      refine ⟨sign.head, sign.tail ++ after, sign.text_append after,
        fun bracket => inside ((Sign.head_eq_iff (by decide)).1 bracket), ?_⟩
      rw [readMember, readChar_of_fits signFits]
      exact memberFrom_of_alone alone sign.char
  | @range low high inside unescaping further highFits =>
      have lowFits : low.Fits ('-' :: (high.text ++ after)) :=
        fun backslash => absurd backslash unescaping
      have notClosing : high.head ≠ ']' :=
        fun bracket => further ((Sign.head_eq_iff (by decide)).1 bracket)
      refine ⟨low.head, low.tail ++ '-' :: (high.text ++ after), ?_,
        fun bracket => inside ((Sign.head_eq_iff (by decide)).1 bracket), ?_⟩
      · rw [Member.text, List.append_assoc, low.text_append, List.cons_append]
      · rw [readMember, readChar_of_fits lowFits, high.text_append,
          memberFrom_of_further notClosing, readChar_of_fits highFits]
        rfl

/-- A member that fits and does not end before it starts is the first of those that are read. -/
theorem readMembers_text_append_of_fits {start : Bool} {member : Member} {after : Text}
    (fits : member.Fits start after) (ordered : member.Ordered) :
    readMembers start (member.text ++ after) =
      (readMembers false after).map fun found => (member.chars :: found.1, found.2) := by
  obtain ⟨c, rest, shape, inside, read⟩ := readMember_of_fits fits
  have notClosing : ¬ (c = ']' ∧ start = false) := fun ⟨bracket, later⟩ => by
    rw [inside bracket] at later
    cases later
  rw [shape, readMembers, if_neg notClosing, read, if_neg (Char.not_lt.2 ordered)]
  cases readMembers false after <;> rfl

theorem readMembers_of_closed {start : Bool} {members : List Member} {after : Text}
    (fit : Member.AllFit start members (']' :: after))
    (ordered : ∀ member ∈ members, member.Ordered) (filled : start = true → members ≠ []) :
    readMembers start (Member.textOfAll members ++ ']' :: after) =
      .ok (members.map Member.chars, after) := by
  induction members generalizing start with
  | nil =>
      obtain rfl : start = false := by simpa using filled
      exact (readMembers.eq_2 false ']' after).trans (if_pos ⟨rfl, rfl⟩)
  | cons member members ih =>
      obtain ⟨first, others⟩ := List.forall_mem_cons.1 ordered
      rw [Member.textOfAll_cons, List.append_assoc, readMembers_text_append_of_fits fit.1 first,
        ih fit.2 others (by simp)]
      rfl

/-- The members do not come to the bracket that closes their set. -/
inductive Member.Fails (start : Bool) : Text → SetFault → Prop where
  /-- They go on to the end of the text. -/
  | unterminated {members : List Member} (fit : AllFit start members [])
      (ordered : ∀ member ∈ members, member.Ordered) :
      Fails start (textOfAll members) .unterminated
  /-- They come to a range that ends before it starts. -/
  | reversed {members : List Member} {low high : Sign} {rest : Text}
      (fit : AllFit start (members ++ [.range low high]) rest)
      (ordered : ∀ member ∈ members, member.Ordered) (reversed : high.char < low.char) :
      Fails start (textOfAll (members ++ [.range low high]) ++ rest)
        (.reversed ⟨low.char, high.char⟩)

theorem readMembers_of_unterminated {start : Bool} {members : List Member}
    (fit : Member.AllFit start members []) (ordered : ∀ member ∈ members, member.Ordered) :
    readMembers start (Member.textOfAll members) = .error .unterminated := by
  induction members generalizing start with
  | nil => exact readMembers.eq_1 start
  | cons member members ih =>
      obtain ⟨first, others⟩ := List.forall_mem_cons.1 ordered
      have fits := fit.1
      rw [List.append_nil] at fits
      rw [Member.textOfAll_cons, readMembers_text_append_of_fits fits first, ih fit.2 others]
      rfl

theorem readMembers_of_reversed {start : Bool} {members : List Member} {low high : Sign}
    {rest : Text} (fit : Member.AllFit start (members ++ [.range low high]) rest)
    (ordered : ∀ member ∈ members, member.Ordered) (reversed : high.char < low.char) :
    readMembers start (Member.textOfAll (members ++ [.range low high]) ++ rest) =
      .error (.reversed ⟨low.char, high.char⟩) := by
  induction members generalizing start with
  | nil =>
      obtain ⟨c, more, shape, inside, read⟩ := readMember_of_fits fit.1
      have notClosing : ¬ (c = ']' ∧ start = false) := fun ⟨bracket, later⟩ => by
        rw [inside bracket] at later
        cases later
      rw [List.nil_append, Member.textOfAll_cons, List.append_assoc, shape, readMembers,
        if_neg notClosing]
      simp only [read]
      exact if_pos reversed
  | cons member members ih =>
      obtain ⟨first, others⟩ := List.forall_mem_cons.1 ordered
      have read := readMembers_text_append_of_fits fit.1 first
      rw [List.append_eq, ih fit.2 others] at read
      rw [List.cons_append, Member.textOfAll_cons, List.append_assoc, read]
      rfl

theorem readMembers_of_fails {start : Bool} {text : Text} {fault : SetFault}
    (fails : Member.Fails start text fault) : readMembers start text = .error fault := by
  cases fails with
  | unterminated fit ordered => exact readMembers_of_unterminated fit ordered
  | reversed fit ordered reversed => exact readMembers_of_reversed fit ordered reversed

/-- The fault is the same behind one member more. -/
theorem Member.Fails.cons {start : Bool} {member : Member} {text : Text} {fault : SetFault}
    (fails : Fails false text fault) (fits : member.Fits start text) (ordered : member.Ordered) :
    Fails start (member.text ++ text) fault := by
  cases fails with
  | @unterminated members fit others =>
      have fit : AllFit start (member :: members) [] := ⟨by rwa [List.append_nil], fit⟩
      rw [← textOfAll_cons]
      exact .unterminated fit (List.forall_mem_cons.2 ⟨ordered, others⟩)
  | @reversed members low high rest fit others reversed =>
      have fit : AllFit start (member :: members ++ [.range low high]) rest := ⟨fits, fit⟩
      rw [← List.append_assoc, ← textOfAll_cons]
      exact .reversed fit (List.forall_mem_cons.2 ⟨ordered, others⟩) reversed

/-! ## Sets -/

theorem readNegation_of_fits {mark : Option Mark} {after : Text} (fits : Mark.Fits mark after) :
    readNegation (Mark.text mark ++ after) = (mark.isSome, after) := by
  match mark with
  | some .exclamation => rfl
  | some .caret => rfl
  | none =>
      obtain ⟨noExclamation, noCaret⟩ := fits rfl
      change readNegation after = (false, after)
      fun_cases readNegation after with
      | case1 => exact absurd rfl noExclamation
      | case2 => exact absurd rfl noCaret
      | case3 => rfl

/-- No set stands behind an opening bracket. -/
def Bracket.Fails (text : Text) (fault : SetFault) : Prop :=
  ∃ mark inside, Mark.Fits mark inside ∧ Member.Fails true inside fault ∧
    Mark.text mark ++ inside = text

theorem readSet_of_fits {bracket : Bracket} {after : Text} (fits : bracket.Fits after) :
    readSet (bracket.text ++ ']' :: after) = .ok (bracket.chars, after) := by
  rw [bracket.text_append, readSet, readNegation_of_fits fits.marked,
    readMembers_of_closed fits.allFit fits.ordered fun _ => fits.nonempty]
  rfl

theorem readSet_of_fails {text : Text} {fault : SetFault} (fails : Bracket.Fails text fault) :
    readSet text = .error fault := by
  obtain ⟨mark, inside, marked, members, rfl⟩ := fails
  rw [readSet, readNegation_of_fits marked, readMembers_of_fails members]

/-! ## Tokens -/

/-- Put the token of a piece in front of others. -/
def Piece.before : Piece → List Token → List Token
  | .star => Token.starThen
  | .any => (.single .any :: ·)
  | .sign written => (.single (.literal written.char) :: ·)
  | .set bracket => (.single (.set bracket.chars) :: ·)

/-- The first item is kept. -/
theorem exists_destutter'_eq_cons {α : Type} (related : α → α → Prop) [DecidableRel related]
    (first : α) (items : List α) : ∃ others, items.destutter' related first = first :: others := by
  induction items with
  | nil => exact ⟨[], rfl⟩
  | cons item items ih =>
      by_cases kept : related first item
      · exact ⟨_, List.destutter'_cons_pos items kept⟩
      · rwa [List.destutter'_cons_neg items kept]

/-- A test is kept, whatever follows it. -/
theorem destutter_single_cons (test : CharTest) (later : List Token) :
    (Token.single test :: later).destutter Token.Apart =
      .single test :: later.destutter Token.Apart := by
  cases later with
  | nil => rfl
  | cons next later =>
      have apart : Token.Apart (.single test) next := fun ⟨noStar, _⟩ => by cases noStar
      exact List.destutter'_cons_pos later apart

/-- A star is kept unless a star follows it. -/
theorem destutter_star_cons (later : List Token) :
    (Token.star :: later).destutter Token.Apart =
      Token.starThen (later.destutter Token.Apart) := by
  match later with
  | [] => rfl
  | .star :: later =>
      have same : ¬ Token.Apart .star .star := fun apart => apart ⟨rfl, rfl⟩
      obtain ⟨rest, shape⟩ := exists_destutter'_eq_cons Token.Apart .star later
      rw [List.destutter_cons', List.destutter_cons', List.destutter'_cons_neg later same, shape]
      rfl
  | .single test :: later =>
      have apart : Token.Apart .star (.single test) := fun ⟨_, noStar⟩ => by cases noStar
      obtain ⟨rest, shape⟩ := exists_destutter'_eq_cons Token.Apart (.single test) later
      rw [List.destutter_cons', List.destutter_cons', List.destutter'_cons_pos later apart, shape]
      rfl

theorem Piece.tokens_cons (piece : Piece) (others : List Piece) :
    tokens (piece :: others) = piece.before (tokens others) := by
  cases piece with
  | star => exact destutter_star_cons _
  | any => exact destutter_single_cons .any _
  | sign written => exact destutter_single_cons (.literal written.char) _
  | set bracket => exact destutter_single_cons (.set bracket.chars) _

/-- A piece that fits is read, in front of whatever follows. -/
theorem readTokens_text_append_of_fits {piece : Piece} {after : Text} (fits : piece.Fits after) :
    readTokens (piece.text ++ after) = (readTokens after).map piece.before := by
  cases fits with
  | star => exact readTokens_star after
  | any => exact readTokens_any after
  | @sign written notStar notAny notSet signFits =>
      have headNe {c : Char} (other : c ≠ '\\') (differs : written ≠ .plain c) : written.head ≠ c :=
        fun same => differs ((Sign.head_eq_iff other).1 same)
      rw [Piece.text, written.text_append, readTokens_char (headNe (by decide) notStar)
        (headNe (by decide) notAny) (headNe (by decide) notSet), readChar_of_fits signFits]
      rfl
  | set bracketFits =>
      rw [Piece.text_set_append]
      exact readTokens_set (readSet_of_fits bracketFits)

theorem readTokens_textOfAll_append {pieces : List Piece} {after : Text}
    (fit : Piece.AllFit pieces after) :
    readTokens (Piece.textOfAll pieces ++ after) =
      (readTokens after).map fun later => pieces.foldr Piece.before later := by
  induction pieces with
  | nil => cases found : readTokens after <;> simp [Piece.textOfAll, found, Except.map]
  | cons piece pieces ih =>
      rw [Piece.textOfAll_cons, List.append_assoc, readTokens_text_append_of_fits fit.1, ih fit.2]
      exact map_map_of_eq (fun _ => rfl) _

/-- A text that is spelled by pieces is read as their tokens. -/
theorem readTokens_of_spell {pieces : List Piece} {text : Text} (spell : Piece.Spell pieces text) :
    readTokens text = .ok (Piece.tokens pieces) := by
  have tokens_eq : pieces.foldr Piece.before [] = Piece.tokens pieces := by
    clear spell
    induction pieces with
    | nil => rfl
    | cons piece pieces ih => rw [List.foldr_cons, ih, Piece.tokens_cons]
  have read := readTokens_textOfAll_append spell.allFit
  rw [List.append_nil, spell.text_eq, readTokens] at read
  rw [read, ← tokens_eq]
  rfl

theorem readTokens_of_bracket_fails {back : Text} {fault : SetFault}
    (fails : Bracket.Fails back fault) :
    readTokens ('[' :: back) = .error ⟨fault, '[' :: back⟩ := by
  have stuck := readSet_of_fails fails
  rw [readTokens, if_neg (by decide), if_neg (by decide), if_pos rfl]
  split
  · rename_i found
    cases stuck.symm.trans found
    rfl
  · rename_i found
    cases stuck.symm.trans found

/-- The pieces of a text go as far as a bracket behind which no set stands. -/
structure Piece.Stuck (pieces : List Piece) (back : Text) (fault : SetFault) (text : Text) : Prop where
  text_eq : textOfAll pieces ++ '[' :: back = text
  allFit : AllFit pieces ('[' :: back)
  fails : Bracket.Fails back fault

theorem readTokens_of_stuck {pieces : List Piece} {back text : Text} {fault : SetFault}
    (stuck : Piece.Stuck pieces back fault text) :
    readTokens text = .error ⟨fault, '[' :: back⟩ := by
  rw [← stuck.text_eq, readTokens_textOfAll_append stuck.allFit,
    readTokens_of_bracket_fails stuck.fails]
  rfl

/-! ## Every text is spelled or stuck -/

theorem Sign.exists_fits (c : Char) (rest : Text) :
    ∃ (sign : Sign) (after : Text), sign.Fits after ∧ sign.text ++ after = c :: rest := by
  by_cases backslash : c = '\\'
  · subst backslash
    cases rest with
    | nil => exact ⟨.plain '\\', [], fun _ => rfl, rfl⟩
    | cons d rest =>
        have fits : (Sign.escaped d).Fits rest := by rintro ⟨⟩
        exact ⟨.escaped d, rest, fits, rfl⟩
  · exact ⟨.plain c, rest, fun same => absurd (Sign.plain.inj same) backslash, rfl⟩

/-- A text begins with a member, unless a bracket closes the set here. -/
theorem Member.exists_fits {start : Bool} {c : Char} (rest : Text)
    (inside : c = ']' → start = true) :
    ∃ (member : Member) (after : Text), member.Fits start after ∧ member.text ++ after = c :: rest := by
  obtain ⟨low, behind, lowFits, written⟩ := Sign.exists_fits c rest
  have lowInside : low = .plain ']' → start = true := by
    rintro rfl
    exact inside (List.cons.inj written).1.symm
  by_cases range : ContinuesRange behind
  · obtain ⟨d, more, rfl, further⟩ := range
    obtain ⟨high, after, highFits, highWritten⟩ := Sign.exists_fits d more
    have unescaping : low ≠ .plain '\\' := fun backslash => by cases lowFits backslash
    have highFurther : high ≠ .plain ']' := by
      rintro rfl
      exact further (List.cons.inj highWritten).1.symm
    refine ⟨.range low high, after, .range lowInside unescaping highFurther highFits, ?_⟩
    rw [text, List.append_assoc, List.cons_append, highWritten, written]
  · exact ⟨.single low, behind, .single lowInside lowFits range, written⟩

theorem Member.text_ne_nil (member : Member) : member.text ≠ [] := by
  cases member with
  | single sign => cases sign <;> exact List.cons_ne_nil _ _
  | range low high => simp [text]

/-- Members come to a bracket that closes their set, or they do not. -/
theorem Member.closed_or_fails (start : Bool) (text : Text) :
    (∃ members after, AllFit start members (']' :: after) ∧ (∀ member ∈ members, member.Ordered) ∧
      (start = true → members ≠ []) ∧ textOfAll members ++ ']' :: after = text) ∨
    ∃ fault, Fails start text fault := by
  match text with
  | [] =>
      have none : AllFit start [] [] := trivial
      exact .inr ⟨_, .unterminated none (by simp)⟩
  | c :: rest =>
      by_cases closing : c = ']' ∧ start = false
      · obtain ⟨rfl, rfl⟩ := closing
        exact .inl ⟨[], rest, trivial, by simp, by simp, rfl⟩
      have inside : c = ']' → start = true := by simpa using closing
      obtain ⟨member, behind, fits, written⟩ := exists_fits rest inside
      by_cases ordered : member.Ordered
      · have shorter : behind.length < (c :: rest).length := by
          have := List.length_pos_of_ne_nil member.text_ne_nil
          rw [← written, List.length_append]
          omega
        rw [← written]
        rcases closed_or_fails false behind with
          ⟨members, after, fit, others, -, rfl⟩ | ⟨fault, fails⟩
        · refine .inl ⟨member :: members, after, ⟨fits, fit⟩,
            List.forall_mem_cons.2 ⟨ordered, others⟩, by simp, ?_⟩
          rw [textOfAll_cons, List.append_assoc]
        · exact .inr ⟨fault, fails.cons fits ordered⟩
      · cases member with
        | single sign => exact absurd (Char.le_refl _) ordered
        | range low high =>
            have fit : AllFit start ([] ++ [.range low high]) behind := ⟨fits, trivial⟩
            have fails := Fails.reversed fit (by simp) (Char.not_le.1 ordered)
            rw [List.nil_append, textOfAll_cons, List.append_assoc] at fails
            exact .inr ⟨_, written ▸ fails⟩
termination_by text.length
decreasing_by exact shorter

theorem Mark.exists_fits (text : Text) :
    ∃ (mark : Option Mark) (after : Text), Mark.Fits mark after ∧ Mark.text mark ++ after = text := by
  by_cases exclamation : text.head? = some '!'
  · obtain ⟨rest, rfl⟩ := List.head?_eq_some_iff.1 exclamation
    exact ⟨some .exclamation, rest, fits_some _ rest, rfl⟩
  by_cases caret : text.head? = some '^'
  · obtain ⟨rest, rfl⟩ := List.head?_eq_some_iff.1 caret
    exact ⟨some .caret, rest, fits_some _ rest, rfl⟩
  · exact ⟨none, text, fun _ => ⟨exclamation, caret⟩, rfl⟩

theorem Bracket.fits_or_fails (text : Text) :
    (∃ (bracket : Bracket) (after : Text), bracket.Fits after ∧
      bracket.text ++ ']' :: after = text) ∨
    ∃ fault, Fails text fault := by
  obtain ⟨mark, inside, marked, rfl⟩ := Mark.exists_fits text
  rcases Member.closed_or_fails true inside with
    ⟨members, after, fit, ordered, filled, rfl⟩ | ⟨fault, fails⟩
  · exact .inl ⟨⟨mark, members⟩, after, ⟨marked, filled rfl, fit, ordered⟩, text_append _ _⟩
  · exact .inr ⟨fault, mark, inside, marked, fails, rfl⟩

theorem Piece.exists_fits (c : Char) (rest : Text) :
    (∃ (piece : Piece) (after : Text), piece.Fits after ∧ piece.text ++ after = c :: rest) ∨
      c = '[' ∧ ∃ fault, Bracket.Fails rest fault := by
  by_cases star : c = '*'
  · exact .inl ⟨.star, rest, .star, by rw [star]; rfl⟩
  by_cases any : c = '?'
  · exact .inl ⟨.any, rest, .any, by rw [any]; rfl⟩
  by_cases opens : c = '['
  · rcases Bracket.fits_or_fails rest with ⟨bracket, after, fits, rfl⟩ | stuck
    · exact .inl ⟨.set bracket, after, .set fits, by rw [text_set_append, opens]⟩
    · exact .inr ⟨opens, stuck⟩
  · obtain ⟨sign, after, fits, written⟩ := Sign.exists_fits c rest
    have differs {mark : Char} (other : c ≠ mark) : sign ≠ .plain mark := by
      rintro rfl
      exact other (List.cons.inj written).1.symm
    exact .inl ⟨.sign sign, after, .sign (differs star) (differs any) (differs opens) fits, written⟩

/-- **The pieces of a text go to its end, or as far as a bracket behind which no set stands.** -/
theorem Piece.spelled_or_stuck (text : Text) :
    (∃ pieces, Spell pieces text) ∨ ∃ pieces back fault, Stuck pieces back fault text := by
  match text with
  | [] => exact .inl ⟨[], rfl, trivial⟩
  | c :: rest =>
      rcases exists_fits c rest with ⟨piece, after, fits, written⟩ | ⟨rfl, fault, fails⟩
      · have shorter : after.length < (c :: rest).length := by
          have := List.length_pos_of_ne_nil piece.text_ne_nil
          rw [← written, List.length_append]
          omega
        rw [← written]
        rcases spelled_or_stuck after with
          ⟨pieces, spelled, fit⟩ | ⟨pieces, back, fault, shape, fit, fails⟩
        · refine .inl ⟨piece :: pieces, by rw [textOfAll_cons, spelled], ?_, fit⟩
          rwa [List.append_nil, spelled]
        · refine .inr ⟨piece :: pieces, back, fault, ?_, ⟨?_, fit⟩, fails⟩
          · rw [textOfAll_cons, List.append_assoc, shape]
          · rwa [shape]
      · exact .inr ⟨[], rest, fault, rfl, trivial, fails⟩
termination_by text.length
decreasing_by exact shorter

/-! ## The whole glob -/

theorem readTokens_eq_ok_iff {text : Text} {tokens : List Token} :
    readTokens text = .ok tokens ↔
      ∃ pieces, Piece.Spell pieces text ∧ Piece.tokens pieces = tokens := by
  constructor
  · intro read
    rcases Piece.spelled_or_stuck text with ⟨pieces, spell⟩ | ⟨pieces, back, fault, stuck⟩
    · exact ⟨pieces, spell, Except.ok.inj ((readTokens_of_spell spell).symm.trans read)⟩
    · cases read.symm.trans (readTokens_of_stuck stuck)
  · rintro ⟨pieces, spell, rfl⟩
    exact readTokens_of_spell spell

theorem readTokens_eq_error_iff {text : Text} {unreadable : Unreadable} :
    readTokens text = .error unreadable ↔
      ∃ pieces back, Piece.Stuck pieces back unreadable.fault text ∧ unreadable.rest = '[' :: back := by
  constructor
  · intro read
    rcases Piece.spelled_or_stuck text with ⟨pieces, spell⟩ | ⟨pieces, back, fault, stuck⟩
    · cases read.symm.trans (readTokens_of_spell spell)
    · cases read.symm.trans (readTokens_of_stuck stuck)
      exact ⟨pieces, back, stuck, rfl⟩
  · rintro ⟨pieces, back, stuck, shape⟩
    rw [readTokens_of_stuck stuck, ← shape]

/-- A fault is reported at the bracket that the pieces go as far as. -/
theorem compile_eq_error_iff {text : Text} {malformed : Malformed} :
    compile text = .error malformed ↔
      ∃ pieces back fault, Piece.Stuck pieces back fault text ∧
        malformed = ⟨text, .set fault, (Piece.textOfAll pieces).length⟩ := by
  have position {pieces : List Piece} {back : Text} {fault : SetFault}
      (stuck : Piece.Stuck pieces back fault text) :
      text.length - ('[' :: back).length = (Piece.textOfAll pieces).length := by
    rw [← stuck.text_eq, List.length_append, Nat.add_sub_cancel]
  unfold compile
  split
  · rename_i unreadable read
    obtain ⟨pieces, back, stuck, shape⟩ := readTokens_eq_error_iff.1 read
    rw [shape, position stuck, Except.error.injEq]
    constructor
    · rintro rfl
      exact ⟨pieces, back, _, stuck, rfl⟩
    · rintro ⟨pieces', back', fault, stuck', rfl⟩
      cases (readTokens_of_stuck stuck).symm.trans (readTokens_of_stuck stuck')
      rw [← position stuck, ← position stuck']
  · rename_i tokens read
    refine iff_of_false (by simp) ?_
    rintro ⟨pieces, back, fault, stuck, -⟩
    cases read.symm.trans (readTokens_of_stuck stuck)

theorem map_tokens_compile_eq_ok_iff {text : Text} {tokens : List Token} :
    ((compile text).map fun glob => glob.tokens) = .ok tokens ↔ readTokens text = .ok tokens := by
  rw [map_eq_ok_iff]
  constructor
  · rintro ⟨glob, done, rfl⟩
    rw [← text_of_compile done]
    exact glob.compiled
  · intro read
    exact ⟨_, compile_of_readTokens read, rfl⟩

/-- **Compiling decides the grammar of globs.**  A glob is compiled exactly when it can be spelled,
and to the tokens of its spelling, which is the only one.  Otherwise the fault is that of the first
set that cannot be read, at its bracket. -/
theorem compile_decides_spelling (text : Text) :
    (∀ tokens, ((compile text).map fun glob => glob.tokens) = .ok tokens ↔
      ∃ pieces, Piece.Spell pieces text ∧ Piece.tokens pieces = tokens) ∧
    (∀ pieces others, Piece.Spell pieces text → Piece.Spell others text → others = pieces) ∧
    ∀ malformed, compile text = .error malformed ↔
      ∃ pieces back fault, Piece.Stuck pieces back fault text ∧
        malformed = ⟨text, .set fault, (Piece.textOfAll pieces).length⟩ := by
  refine ⟨fun tokens => ?_, fun pieces others spell spell' => spell.unique spell', ?_⟩
  · rw [map_tokens_compile_eq_ok_iff, readTokens_eq_ok_iff]
  · exact fun malformed => compile_eq_error_iff

/-- `[]-a-]**` and a backslash: a range from the bracket at the start, a hyphen at the end, two
stars and a backslash that has nothing to escape.  In `a[^b-a]` the range is the wrong way round,
and `?[a-` is not closed. -/
theorem compile_of_bare_brackets_and_hyphens :
    (∃ pieces, Piece.Spell pieces ['[', ']', '-', 'a', '-', ']', '*', '*', '\\'] ∧
      (∀ others, Piece.Spell others ['[', ']', '-', 'a', '-', ']', '*', '*', '\\'] →
        others = pieces) ∧
      ((compile ['[', ']', '-', 'a', '-', ']', '*', '*', '\\']).map fun glob => glob.tokens) =
        .ok [.single (.set ⟨[⟨']', 'a'⟩, ⟨'-', '-'⟩], false⟩), .star, .single (.literal '\\')]) ∧
    compile ['a', '[', '^', 'b', '-', 'a', ']'] =
      .error ⟨['a', '[', '^', 'b', '-', 'a', ']'], .set (.reversed ⟨'b', 'a'⟩), 1⟩ ∧
    compile ['?', '[', 'a', '-'] = .error ⟨['?', '[', 'a', '-'], .set .unterminated, 1⟩ := by
  have plain {c : Char} (other : c ≠ '\\') (after : Text) : (Sign.plain c).Fits after :=
    fun same => absurd (Sign.plain.inj same) other
  refine ⟨?_, ?_, ?_⟩
  · have bracket : (Bracket.mk none
        [.range (.plain ']') (.plain 'a'), .single (.plain '-')]).Fits ['*', '*', '\\'] := by
      refine ⟨fun _ => by decide, by decide, ⟨?_, ?_, trivial⟩, by decide⟩
      · exact .range (fun _ => rfl) (by decide) (by decide) (plain (by decide) _)
      · refine .single (fun same => by cases same) (plain (by decide) _) ?_
        rintro ⟨c, rest, ⟨⟩, -⟩
    have spell : Piece.Spell
        [.set ⟨none, [.range (.plain ']') (.plain 'a'), .single (.plain '-')]⟩, .star, .star,
          .sign (.plain '\\')] ['[', ']', '-', 'a', '-', ']', '*', '*', '\\'] :=
      ⟨rfl, .set bracket, .star, .star,
        .sign (by decide) (by decide) (by decide) (fun _ => rfl), trivial⟩
    obtain ⟨tokens, unique, -⟩ := compile_decides_spelling ['[', ']', '-', 'a', '-', ']', '*', '*', '\\']
    exact ⟨_, spell, fun others spell' => unique _ others spell spell', (tokens _).2 ⟨_, spell, rfl⟩⟩
  · have fails : Bracket.Fails ['^', 'b', '-', 'a', ']'] (.reversed ⟨'b', 'a'⟩) := by
      have fit : Member.AllFit true ([] ++ [.range (.plain 'b') (.plain 'a')]) [']'] :=
        ⟨.range (fun _ => rfl) (by decide) (by decide) (plain (by decide) _), trivial⟩
      exact ⟨some .caret, _, Mark.fits_some _ _, .reversed fit (by simp) (by decide), rfl⟩
    have first : Piece.AllFit [.sign (.plain 'a')] ['[', '^', 'b', '-', 'a', ']'] :=
      ⟨.sign (by decide) (by decide) (by decide) (plain (by decide) _), trivial⟩
    exact ((compile_decides_spelling _).2.2 _).2 ⟨_, _, _, ⟨rfl, first, fails⟩, rfl⟩
  · have fails : Bracket.Fails ['a', '-'] .unterminated := by
      have alone {after : Text} (short : after.length < 2) : ¬ ContinuesRange after := by
        rintro ⟨c, rest, rfl, -⟩
        simp only [List.length_cons] at short
        omega
      have fit : Member.AllFit true [.single (.plain 'a'), .single (.plain '-')] [] :=
        ⟨.single (fun _ => rfl) (plain (by decide) _) (alone (by decide)),
          .single (fun same => by cases same) (plain (by decide) _) (alone (by decide)), trivial⟩
      exact ⟨none, _, fun _ => by decide, .unterminated fit (by decide), rfl⟩
    exact ((compile_decides_spelling _).2.2 _).2 ⟨[.any], _, _, ⟨rfl, ⟨.any, trivial⟩, fails⟩, rfl⟩

end Glob

end Pkgsrc
