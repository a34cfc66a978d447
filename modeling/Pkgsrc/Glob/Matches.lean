import Pkgsrc.Glob.Token

/-!
# Pkgsrc.Glob.Matches -- what it means for a glob to match

The tokens stand for a text one by one, without any word on how a match is found.  A star takes its
run of characters one at a time.
-/

namespace Pkgsrc

set_option autoImplicit false

namespace Glob

inductive Matches : List Token → Text → Prop where
  | nil : Matches [] []
  | single {test : CharTest} {tokens : List Token} {c : Char} {text : Text} :
      test.accepts c = true → Matches tokens text →
        Matches (.single test :: tokens) (c :: text)
  | rest {tokens : List Token} {text : Text} :
      Matches tokens text → Matches (.star :: tokens) text
  | more {tokens : List Token} {c : Char} {text : Text} :
      Matches (.star :: tokens) text → Matches (.star :: tokens) (c :: text)

theorem matches_star_iff {tokens : List Token} {text : Text} :
    Matches (.star :: tokens) text ↔ ∃ taken left, taken ++ left = text ∧ Matches tokens left := by
  constructor
  · intro h
    generalize shape : Token.star :: tokens = all at h
    induction h with
    | nil => cases shape
    | single => cases shape
    | rest inner => cases shape; exact ⟨[], _, rfl, inner⟩
    | more _ ih =>
      cases shape
      obtain ⟨taken, left, rfl, inner⟩ := ih rfl
      exact ⟨_ :: taken, left, rfl, inner⟩
  · rintro ⟨taken, left, rfl, inner⟩
    induction taken with
    | nil => exact .rest inner
    | cons c taken ih => exact .more ih

end Glob

end Pkgsrc
