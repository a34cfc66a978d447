/-
# Pkgsrc.Proofs.Glob.Literal -- characters that stand for themselves

Four characters of a glob have a meaning of their own: `*`, `?`, `[` and the backslash.  Every
other character is read as itself (`readTokens_append_of_ordinary`), and the literals so read
match exactly the same characters (`matches_literals_append_iff`).
-/
import Pkgsrc.Glob.Reader
import Pkgsrc.Proofs.Glob.Retry
import Pkgsrc.Proofs.Results

namespace Pkgsrc

set_option autoImplicit false

namespace Glob

/-- The character has no meaning of its own. -/
structure Ordinary (c : Char) : Prop where
  notStar : c ≠ '*'
  notAny : c ≠ '?'
  notSet : c ≠ '['
  notEscape : c ≠ '\\'

/-- Tokens for characters that stand for themselves. -/
def literals (chars : Text) : List Token :=
  chars.map fun c => .single (.literal c)

theorem readTokens_cons_of_ordinary {c : Char} (ordinary : Ordinary c) (text : Text) :
    readTokens (c :: text) = (readTokens text).map (.single (.literal c) :: ·) := by
  rw [readTokens_char ordinary.notStar ordinary.notAny ordinary.notSet,
    readChar_of_ne ordinary.notEscape]

theorem readTokens_append_of_ordinary {chars : Text} (ordinary : ∀ c ∈ chars, Ordinary c)
    {text : Text} {tokens : List Token} (read : readTokens text = .ok tokens) :
    readTokens (chars ++ text) = .ok (literals chars ++ tokens) := by
  induction chars with
  | nil => exact read
  | cons c chars ih =>
      obtain ⟨first, others⟩ := List.forall_mem_cons.1 ordinary
      rw [List.cons_append, readTokens_cons_of_ordinary first, ih others]
      rfl

/-- Literals match their own characters, and leave the rest to what follows them. -/
theorem matches_literals_append_iff {chars : Text} {tokens : List Token} {text : Text} :
    Matches (literals chars ++ tokens) text ↔
      ∃ rest, chars ++ rest = text ∧ Matches tokens rest := by
  induction chars generalizing text with
  | nil => simp [literals]
  | cons c chars ih =>
      have shape : literals (c :: chars) ++ tokens =
          .single (.literal c) :: (literals chars ++ tokens) := rfl
      rw [shape]
      cases text with
      | nil => simp
      | cons d text => simp [ih, CharTest.accepts, and_assoc]

theorem matches_literals_iff {chars text : Text} : Matches (literals chars) text ↔ chars = text := by
  have alone : Matches (literals chars ++ []) text ↔ ∃ rest, chars ++ rest = text ∧ Matches [] rest :=
    matches_literals_append_iff
  simpa using alone

end Glob

end Pkgsrc
