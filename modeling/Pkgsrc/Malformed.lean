import Pkgsrc.Operator
import Pkgsrc.Braces
import Pkgsrc.Glob.Reader

/-!
# Pkgsrc.Malformed -- what is wrong with a pattern

The text that was being read is the pattern itself or, where there are groups of alternatives, one
of the texts that it expands to.  The position is one in that text.
-/

namespace Pkgsrc

set_option autoImplicit false

namespace Malformed

inductive Reason where
  | unbalancedBraces
  | emptyAlternative
  | missingName
  | tooManyOperators
  | missingVersion (operator : Operator)
  /-- The two comparisons are not a lower bound followed by an upper bound. -/
  | operatorOrder
  | set (fault : Glob.SetFault)
  deriving DecidableEq, Repr

def Reason.text : Reason → Text
  | .unbalancedBraces => "unbalanced braces".toList
  | .emptyAlternative => "empty alternative".toList
  | .missingName => "missing package name".toList
  | .tooManyOperators => "too many operators".toList
  | .missingVersion operator =>
    "missing version after ".toList
      ++ '\x22' :: operator.text ++ ['\x22']
  | .operatorOrder => "unsupported operator order".toList
  | .set .unterminated => "unterminated bracket expression".toList
  | .set (.reversed range) => "invalid range ".toList ++ [range.first, '-', range.last]

end Malformed

structure Malformed where
  pattern : Text
  reason : Malformed.Reason
  position : Nat
  deriving DecidableEq, Repr

end Pkgsrc
