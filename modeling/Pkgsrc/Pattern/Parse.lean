import Pkgsrc.Pattern
import Pkgsrc.Pattern.Cuts

/-!
# Pkgsrc.Pattern.Parse -- the pattern that a text stands for

The first group of a text is replaced by each of its alternatives in turn, and each text so made is
read by itself, which expands nested and following groups.  Of two faults in one text the one listed
first in `ofCuts` wins, and of several alternatives the first faulty one.
-/

namespace Pkgsrc

set_option autoImplicit false

namespace Pattern

/-! ## Texts without braces -/

/-- Whether a text with this character, and without comparisons, is a glob. -/
def isWildcard (c : Char) : Bool :=
  c == '*' || c == '?' || c == '['

def rangeOf (text base : Text) (lower upper : Operator × Text) : Except Malformed Leaf :=
  if lower.1.isLower && upper.1.isUpper then
    .ok (.range base ⟨base, lower.1, lower.2⟩ ⟨base, upper.1, upper.2⟩)
  else .error ⟨text, .operatorOrder, base.length⟩

def checkVersion (text : Text) (position : Nat) (bound : Operator × Text) :
    Except Malformed Unit :=
  if bound.2 = [] then .error ⟨text, .missingVersion bound.1, position⟩ else .ok ()

def boundLength (bound : Operator × Text) : Nat :=
  bound.1.text.length + bound.2.length

def ofCuts (text : Text) (cuts : Cuts) : Except Malformed Leaf :=
  let first := cuts.base.length
  if cuts.base = [] then .error ⟨text, .missingName, 0⟩
  else
    match cuts.bounds with
    | [] => .ok (.exact text)
    | [only] => do
      checkVersion text first only
      return .relation ⟨cuts.base, only.1, only.2⟩
    | [lower, upper] => do
      checkVersion text first lower
      checkVersion text (first + boundLength lower) upper
      rangeOf text cuts.base lower upper
    | lower :: upper :: _ =>
      .error ⟨text, .tooManyOperators, first + boundLength lower + boundLength upper⟩

def parsePlain (text : Text) : Except Malformed Leaf :=
  let cuts := Cuts.read text
  if cuts.bounds ≠ [] then ofCuts text cuts
  else if text.any isWildcard then (Glob.compile text).map .glob
  else .ok (.exact text)

/-! ## Texts with braces -/

def braceFault (text : Text) : Braces.Fault → Malformed
  | .unbalanced position => ⟨text, .unbalancedBraces, position⟩
  | .emptyAlternative position => ⟨text, .emptyAlternative, position⟩

def firstGroup (text : Text) : Except Malformed (Option Braces.Group) :=
  (Braces.firstGroup text).mapError (braceFault text)

def parse (text : Text) : Except Malformed Pattern :=
  match _found : Braces.firstGroup text with
  | .error fault => .error (braceFault text fault)
  | .ok none => (parsePlain text).map .leaf
  | .ok (some group) => do
    let branches ← group.alternatives.attach.mapM fun alternative =>
      parse (group.around alternative.1)
    return .alternation text branches
termination_by text.count '{'
decreasing_by exact Braces.count_around_lt _found alternative.2

end Pattern

end Pkgsrc
