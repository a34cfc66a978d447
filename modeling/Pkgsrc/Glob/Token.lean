import Pkgsrc.Text

/-!
# Pkgsrc.Glob.Token -- what a shell glob is made of

A star stands for any run of characters, any other token for one.  A set keeps its ranges as they
were written; ranges and sets can be of any ordered type, such as that of texts.
-/

namespace Pkgsrc

set_option autoImplicit false

namespace Glob

structure Range (α : Type) where
  first : α
  last : α
  deriving DecidableEq, Repr

def Range.holds {α : Type} [LE α] [DecidableLE α] (range : Range α) (x : α) : Bool :=
  decide (range.first ≤ x) && decide (x ≤ range.last)

structure RangeSet (α : Type) where
  ranges : List (Range α)
  negated : Bool
  deriving DecidableEq, Repr

def RangeSet.holds {α : Type} [LE α] [DecidableLE α] (set : RangeSet α) (x : α) : Bool :=
  (set.ranges.any fun range => range.holds x) != set.negated

abbrev CharRange := Range Char

abbrev CharSet := RangeSet Char

inductive CharTest where
  | literal (char : Char)
  | any
  | set (chars : CharSet)
  deriving DecidableEq, Repr

def CharTest.accepts : CharTest → Char → Bool
  | .literal char, c => char == c
  | .any, _ => true
  | .set chars, c => chars.holds c

inductive Token where
  | star
  | single (test : CharTest)
  deriving DecidableEq, Repr

/-- Two stars in a row are one. -/
def Token.starThen : List Token → List Token
  | .star :: rest => .star :: rest
  | tokens => .star :: tokens

end Glob

end Pkgsrc
