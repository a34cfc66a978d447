/-
# Pkgsrc.Proofs.Glob.Spelling -- how a glob is spelled

A glob is a row of pieces: a star, a question mark, a sign, which is a character as it is or behind
a backslash, or a bracket, which has members between `[` and `]` and maybe a mark in front of them.
A member is a sign, or two signs with a hyphen between them.

The same characters can mean different things, and what follows a piece decides.  A backslash is
a sign by itself only where nothing follows it (`Sign.Fits`).  A hyphen behind a sign makes a range
of it and the next one, unless that is the `]` of the bracket (`ContinuesRange`), and this `]` is
the first one that is neither escaped nor the first member (`Member.Fits`).  Where a mark can stand
there is one (`Mark.Fits`).

So there is one way only to spell a text as pieces that fit (`Piece.eq_of_textOfAll_eq`): whatever
follows them, the same characters begin with the same sign, member or piece.
-/
import Pkgsrc.Glob.Token
import Mathlib.Data.List.Destutter

namespace Pkgsrc

set_option autoImplicit false

namespace Glob

/-! ## Signs -/

/-- A character as it is written. -/
inductive Sign where
  | plain (c : Char)
  /-- A character behind a backslash. -/
  | escaped (c : Char)
  deriving DecidableEq

namespace Sign

/-- The character that is meant. -/
def char : Sign → Char
  | .plain c => c
  | .escaped c => c

def text : Sign → Text
  | .plain c => [c]
  | .escaped c => ['\\', c]

/-- The sign can stand in front of `after`: a backslash takes what follows it, and stands for
itself only at the end. -/
def Fits (sign : Sign) (after : Text) : Prop :=
  sign = .plain '\\' → after = []

/-- The first character of the sign. -/
def head : Sign → Char
  | .plain c => c
  | .escaped _ => '\\'

/-- The sign without its first character. -/
def tail : Sign → Text
  | .plain _ => []
  | .escaped c => [c]

theorem text_append (sign : Sign) (after : Text) :
    sign.text ++ after = sign.head :: (sign.tail ++ after) := by
  cases sign <;> rfl

theorem head_eq_iff {sign : Sign} {c : Char} (other : c ≠ '\\') :
    sign.head = c ↔ sign = .plain c := by
  cases sign with
  | plain d => simp [head]
  | escaped d => simp [head, Ne.symm other]

theorem text_append_ne {sign : Sign} {c : Char} (other : c ≠ '\\') (differs : sign ≠ .plain c)
    (after rest : Text) : sign.text ++ after ≠ c :: rest := by
  rw [text_append]
  exact fun same => differs ((head_eq_iff other).1 (List.cons.inj same).1)

/-- A text begins with one sign only. -/
theorem Fits.unique {sign other : Sign} {after after' : Text} (fits : sign.Fits after)
    (fits' : other.Fits after') (same : sign.text ++ after = other.text ++ after') :
    sign = other ∧ after = after' := by
  -- a plain backslash is the whole text, and so not the beginning of an escaped sign
  have alone {c d : Char} {rest rest' : Text} (lone : (Sign.plain c).Fits rest)
      (shape : [c] ++ rest = ['\\', d] ++ rest') : False := by
    obtain ⟨rfl, behind⟩ := List.cons.inj shape
    cases (lone rfl).symm.trans behind
  cases sign with
  | plain c =>
      cases other with
      | plain d =>
          obtain ⟨rfl, rfl⟩ := List.cons.inj same
          exact ⟨rfl, rfl⟩
      | escaped d => exact (alone fits same).elim
  | escaped c =>
      cases other with
      | plain d => exact (alone fits' same.symm).elim
      | escaped d =>
          obtain ⟨rfl, rfl⟩ := List.cons.inj (List.cons.inj same).2
          exact ⟨rfl, rfl⟩

end Sign

/-! ## Members of a set -/

/-- A hyphen that another character than the closing bracket follows. -/
def ContinuesRange (after : Text) : Prop :=
  ∃ c rest, after = '-' :: c :: rest ∧ c ≠ ']'

/-- A member of a set. -/
inductive Member where
  | single (sign : Sign)
  | range (low high : Sign)
  deriving DecidableEq

namespace Member

def text : Member → Text
  | .single sign => sign.text
  | .range low high => low.text ++ '-' :: high.text

/-- Members, one behind the other. -/
def textOfAll (members : List Member) : Text :=
  members.flatMap text

/-- The characters that the member stands for. -/
def chars : Member → CharRange
  | .single sign => ⟨sign.char, sign.char⟩
  | .range low high => ⟨low.char, high.char⟩

/-- The member does not end before it starts. -/
def Ordered (member : Member) : Prop :=
  member.chars.first ≤ member.chars.last

instance (member : Member) : Decidable member.Ordered :=
  inferInstanceAs (Decidable (_ ≤ _))

/-- The member can stand in front of `after`, where a bare `]` is one only at the `start`. -/
inductive Fits (start : Bool) (after : Text) : Member → Prop where
  | single {sign : Sign} (inside : sign = .plain ']' → start = true) (fits : sign.Fits after)
      (alone : ¬ ContinuesRange after) : Fits start after (.single sign)
  | range {low high : Sign} (inside : low = .plain ']' → start = true)
      (lowFits : low ≠ .plain '\\') (further : high ≠ .plain ']') (highFits : high.Fits after) :
      Fits start after (.range low high)

/-- Each member can stand in front of those behind it and `after`. -/
def AllFit : Bool → List Member → Text → Prop
  | _, [], _ => True
  | start, member :: others, after =>
      member.Fits start (textOfAll others ++ after) ∧ AllFit false others after

theorem textOfAll_cons (member : Member) (others : List Member) :
    textOfAll (member :: others) = member.text ++ textOfAll others :=
  List.flatMap_cons

/-- Behind the start a member does not begin with a bare `]`. -/
theorem Fits.text_append_ne {member : Member} {after : Text} (fits : member.Fits false after)
    (rest more : Text) : member.text ++ more ≠ ']' :: rest := by
  cases fits with
  | single inside _ _ =>
      exact Sign.text_append_ne (by decide) (fun same => Bool.false_ne_true (inside same)) _ _
  | range inside _ _ _ =>
      rw [text, List.append_assoc]
      exact Sign.text_append_ne (by decide) (fun same => Bool.false_ne_true (inside same)) _ _

/-- The higher end of a range is not what closes the set. -/
theorem continuesRange_of_further {high : Sign} (further : high ≠ .plain ']') (after : Text) :
    ContinuesRange ('-' :: high.text ++ after) := by
  refine ⟨high.head, high.tail ++ after, ?_, fun same => ?_⟩
  · rw [List.cons_append, Sign.text_append]
  · exact further ((Sign.head_eq_iff (by decide)).1 same)

/-- A text begins with one member only. -/
theorem Fits.unique {start start' : Bool} {member other : Member} {after after' : Text}
    (fits : member.Fits start after) (fits' : other.Fits start' after')
    (same : member.text ++ after = other.text ++ after') : member = other ∧ after = after' := by
  have low_fits {low : Sign} (unescaping : low ≠ .plain '\\') (rest : Text) : low.Fits rest :=
    fun backslash => absurd backslash unescaping
  cases fits with
  | single _ signFits alone =>
      cases fits' with
      | single _ signFits' _ =>
          obtain ⟨rfl, rfl⟩ := signFits.unique signFits' same
          exact ⟨rfl, rfl⟩
      | range _ unescaping further _ =>
          rw [text, text, List.append_assoc] at same
          obtain ⟨-, rfl⟩ := signFits.unique (low_fits unescaping _) same
          exact absurd (continuesRange_of_further further after') alone
  | range _ unescaping further highFits =>
      cases fits' with
      | single _ signFits' alone =>
          rw [text, text, List.append_assoc] at same
          obtain ⟨-, rfl⟩ := (low_fits unescaping _).unique signFits' same
          exact absurd (continuesRange_of_further further after) alone
      | range _ unescaping' _ highFits' =>
          rw [text, text, List.append_assoc, List.append_assoc] at same
          obtain ⟨rfl, behind⟩ := (low_fits unescaping _).unique (low_fits unescaping' _) same
          obtain ⟨rfl, rfl⟩ := highFits.unique highFits' (List.cons.inj behind).2
          exact ⟨rfl, rfl⟩

/-- The members of a set, up to the bracket that closes it, are found in one way only. -/
theorem AllFit.unique {start : Bool} {members others : List Member} {after after' : Text}
    (fit : AllFit start members (']' :: after)) (fit' : AllFit start others (']' :: after'))
    (filled : start = true → members ≠ []) (filled' : start = true → others ≠ [])
    (same : textOfAll members ++ ']' :: after = textOfAll others ++ ']' :: after') :
    members = others ∧ after = after' := by
  induction members generalizing start others with
  | nil =>
      obtain rfl : start = false := by simpa using filled
      cases others with
      | nil => exact ⟨rfl, (List.cons.inj same).2⟩
      | cons other others =>
          rw [textOfAll_cons, List.append_assoc] at same
          exact absurd same.symm (fit'.1.text_append_ne _ _)
  | cons member members ih =>
      cases others with
      | nil =>
          obtain rfl : start = false := by simpa using filled'
          rw [textOfAll_cons, List.append_assoc] at same
          exact absurd same (fit.1.text_append_ne _ _)
      | cons other others =>
          rw [textOfAll_cons, textOfAll_cons, List.append_assoc, List.append_assoc] at same
          obtain ⟨rfl, behind⟩ := fit.1.unique fit'.1 same
          obtain ⟨rfl, rfl⟩ := ih fit.2 fit'.2 (by simp) (by simp) behind
          exact ⟨rfl, rfl⟩

end Member

/-! ## Brackets -/

/-- What turns a set into all other characters. -/
inductive Mark where
  | exclamation
  | caret
  deriving DecidableEq

namespace Mark

def char : Mark → Char
  | .exclamation => '!'
  | .caret => '^'

/-- The mark of a set, where it has one. -/
def text (mark : Option Mark) : Text :=
  (mark.map char).toList

/-- There is a mark unless something else follows. -/
def Fits (mark : Option Mark) (after : Text) : Prop :=
  mark = none → after.head? ≠ some '!' ∧ after.head? ≠ some '^'

theorem fits_some (mark : Mark) (after : Text) : Fits (some mark) after :=
  fun none => (Option.some_ne_none _ none).elim

/-- A text begins with one mark, or with none. -/
theorem Fits.unique {mark other : Option Mark} {after after' : Text} (fits : Fits mark after)
    (fits' : Fits other after') (same : text mark ++ after = text other ++ after') :
    mark = other ∧ after = after' := by
  have unmarked {sign : Mark} {rest rest' : Text} (free : Fits none rest)
      (shape : rest = text (some sign) ++ rest') : False := by
    obtain ⟨noExclamation, noCaret⟩ := free rfl
    cases sign with
    | exclamation => exact noExclamation (by rw [shape]; rfl)
    | caret => exact noCaret (by rw [shape]; rfl)
  match mark, other with
  | none, none => exact ⟨rfl, same⟩
  | none, some _ => exact (unmarked fits same).elim
  | some _, none => exact (unmarked fits' same.symm).elim
  | some first, some second =>
      obtain ⟨char_eq, rfl⟩ := List.cons.inj same
      cases first <;> cases second <;> first | exact ⟨rfl, rfl⟩ | cases char_eq

end Mark

/-- A set as it is written. -/
structure Bracket where
  mark : Option Mark
  members : List Member
  deriving DecidableEq

namespace Bracket

/-- The inside of the bracket. -/
def text (bracket : Bracket) : Text :=
  Mark.text bracket.mark ++ Member.textOfAll bracket.members

/-- The set that is meant. -/
def chars (bracket : Bracket) : CharSet :=
  ⟨bracket.members.map Member.chars, bracket.mark.isSome⟩

/-- The bracket has members, none of which ends before it starts, and can be closed in front of
`after`. -/
structure Fits (bracket : Bracket) (after : Text) : Prop where
  marked : Mark.Fits bracket.mark (Member.textOfAll bracket.members ++ ']' :: after)
  nonempty : bracket.members ≠ []
  allFit : Member.AllFit true bracket.members (']' :: after)
  ordered : ∀ member ∈ bracket.members, member.Ordered

theorem text_append (bracket : Bracket) (after : Text) :
    bracket.text ++ after =
      Mark.text bracket.mark ++ (Member.textOfAll bracket.members ++ after) :=
  List.append_assoc ..

/-- The inside of a bracket is found in one way only. -/
theorem Fits.unique {bracket other : Bracket} {after after' : Text} (fits : bracket.Fits after)
    (fits' : other.Fits after') (same : bracket.text ++ ']' :: after = other.text ++ ']' :: after') :
    bracket = other ∧ after = after' := by
  obtain ⟨mark, members⟩ := bracket
  obtain ⟨mark', members'⟩ := other
  rw [text_append, text_append] at same
  obtain ⟨rfl, behind⟩ := fits.marked.unique fits'.marked same
  obtain ⟨rfl, rfl⟩ :=
    fits.allFit.unique fits'.allFit (fun _ => fits.nonempty) (fun _ => fits'.nonempty) behind
  exact ⟨rfl, rfl⟩

end Bracket

/-! ## Pieces -/

/-- The tokens are not two stars. -/
def Token.Apart (left right : Token) : Prop :=
  ¬ (left = .star ∧ right = .star)

instance : DecidableRel Token.Apart :=
  fun _ _ => inferInstanceAs (Decidable (¬ _))

/-- A part of a glob. -/
inductive Piece where
  | star
  | any
  | sign (written : Sign)
  | set (bracket : Bracket)
  deriving DecidableEq

namespace Piece

def text : Piece → Text
  | .star => ['*']
  | .any => ['?']
  | .sign written => written.text
  | .set bracket => '[' :: (bracket.text ++ [']'])

/-- Pieces, one behind the other. -/
def textOfAll (pieces : List Piece) : Text :=
  pieces.flatMap text

/-- The token that the piece stands for. -/
def token : Piece → Token
  | .star => .star
  | .any => .single .any
  | .sign written => .single (.literal written.char)
  | .set bracket => .single (.set bracket.chars)

/-- The tokens of the pieces, of which those of a row of stars are one. -/
def tokens (pieces : List Piece) : List Token :=
  (pieces.map token).destutter Token.Apart

/-- The piece can stand in front of `after`. -/
inductive Fits (after : Text) : Piece → Prop where
  | star : Fits after .star
  | any : Fits after .any
  | sign {written : Sign} (notStar : written ≠ .plain '*') (notAny : written ≠ .plain '?')
      (notSet : written ≠ .plain '[') (fits : written.Fits after) : Fits after (.sign written)
  | set {bracket : Bracket} (fits : bracket.Fits after) : Fits after (.set bracket)

/-- Each piece can stand in front of those behind it and `after`. -/
def AllFit : List Piece → Text → Prop
  | [], _ => True
  | piece :: others, after => piece.Fits (textOfAll others ++ after) ∧ AllFit others after

/-- The pieces are those of the text. -/
structure Spell (pieces : List Piece) (text : Text) : Prop where
  text_eq : textOfAll pieces = text
  allFit : AllFit pieces []

theorem textOfAll_cons (piece : Piece) (others : List Piece) :
    textOfAll (piece :: others) = piece.text ++ textOfAll others :=
  List.flatMap_cons

theorem text_ne_nil (piece : Piece) : piece.text ≠ [] := by
  cases piece with
  | star => exact List.cons_ne_nil _ _
  | any => exact List.cons_ne_nil _ _
  | sign written => cases written <;> exact List.cons_ne_nil _ _
  | set bracket => exact List.cons_ne_nil _ _

theorem text_set_append (bracket : Bracket) (after : Text) :
    (Piece.set bracket).text ++ after = '[' :: (bracket.text ++ ']' :: after) := by
  simp [text]

/-- A text begins with one piece only. -/
theorem Fits.unique {piece other : Piece} {after after' : Text} (fits : piece.Fits after)
    (fits' : other.Fits after') (same : piece.text ++ after = other.text ++ after') :
    piece = other ∧ after = after' := by
  cases fits with
  | star =>
      cases fits' with
      | star => exact ⟨rfl, (List.cons.inj same).2⟩
      | any => cases same
      | sign notStar _ _ _ => exact (Sign.text_append_ne (by decide) notStar _ _ same.symm).elim
      | set _ => cases same
  | any =>
      cases fits' with
      | star => cases same
      | any => exact ⟨rfl, (List.cons.inj same).2⟩
      | sign _ notAny _ _ => exact (Sign.text_append_ne (by decide) notAny _ _ same.symm).elim
      | set _ => cases same
  | sign notStar notAny notSet signFits =>
      cases fits' with
      | star => exact (Sign.text_append_ne (by decide) notStar _ _ same).elim
      | any => exact (Sign.text_append_ne (by decide) notAny _ _ same).elim
      | sign _ _ _ signFits' =>
          obtain ⟨rfl, rfl⟩ := signFits.unique signFits' same
          exact ⟨rfl, rfl⟩
      | set _ => exact (Sign.text_append_ne (by decide) notSet _ _ same).elim
  | set bracketFits =>
      cases fits' with
      | star => cases same
      | any => cases same
      | sign _ _ notSet _ => exact (Sign.text_append_ne (by decide) notSet _ _ same.symm).elim
      | set bracketFits' =>
          rw [text_set_append, text_set_append] at same
          obtain ⟨rfl, rfl⟩ := bracketFits.unique bracketFits' (List.cons.inj same).2
          exact ⟨rfl, rfl⟩

/-- **A text is spelled in one way only.** -/
theorem eq_of_textOfAll_eq {pieces others : List Piece} (fit : AllFit pieces [])
    (fit' : AllFit others []) (same : textOfAll pieces = textOfAll others) : pieces = others := by
  induction pieces generalizing others with
  | nil =>
      cases others with
      | nil => rfl
      | cons other others =>
          rw [textOfAll_cons] at same
          exact absurd (List.append_eq_nil_iff.1 same.symm).1 other.text_ne_nil
  | cons piece pieces ih =>
      cases others with
      | nil =>
          rw [textOfAll_cons] at same
          exact absurd (List.append_eq_nil_iff.1 same).1 piece.text_ne_nil
      | cons other others =>
          rw [textOfAll_cons, textOfAll_cons] at same
          obtain ⟨first, others'⟩ := fit
          obtain ⟨first', others''⟩ := fit'
          rw [List.append_nil] at first first'
          obtain ⟨rfl, behind⟩ := first.unique first' same
          rw [ih others' others'' behind]

theorem Spell.unique {pieces others : List Piece} {text : Text} (spell : Spell pieces text)
    (spell' : Spell others text) : others = pieces :=
  eq_of_textOfAll_eq spell'.allFit spell.allFit (spell'.text_eq.trans spell.text_eq.symm)

end Piece

end Glob

end Pkgsrc
