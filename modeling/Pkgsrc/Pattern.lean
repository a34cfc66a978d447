import Pkgsrc.Glob
import Pkgsrc.PkgName
import Pkgsrc.Value

/-!
# Pkgsrc.Pattern -- dependency patterns

A pattern is an exact name, `foobar-1.0`, a comparison, `foobar>=1.0`, a range, `foobar>=1.0<2`, a
shell glob, `foobar-[0-9]*`, or alternatives, `{foo,bar}>=1.0`, which hold one pattern each.  A tree
that was put together by hand may also have a plain value for a leaf, which is no pattern, or a
blank, which has no text; to match one of them is an error.
-/

namespace Pkgsrc

set_option autoImplicit false

structure Relation where
  base : Text
  operator : Operator
  version : Text
  deriving DecidableEq, Repr

namespace Relation

def bound (relation : Relation) : Text :=
  relation.operator.text ++ relation.version

def text (relation : Relation) : Text :=
  relation.base ++ relation.bound

def holds (relation : Relation) (version : Text) : Except NumberFault Bool :=
  (Version.order version relation.version).map relation.operator.holds

end Relation

inductive Leaf where
  | exact (name : Text)
  | relation (wanted : Relation)
  /-- Only the operators and versions of the bounds count. -/
  | range (base : Text) (lower upper : Relation)
  | glob (compiled : Glob)
  | value (plain : Value)
  /-- It differs from all others and must not be compared with its like. -/
  | blank
  deriving DecidableEq, Repr

namespace Leaf

def text : Leaf → Text
  | .exact name => name
  | .relation wanted => wanted.text
  | .range base lower upper => base ++ lower.bound ++ upper.bound
  | .glob compiled => compiled.text
  | .value plain => plain.spelled
  | .blank => []

def isBaseChar (c : Char) : Bool :=
  c.isAlphanum || c == '_' || c == '+' || c == '.' || c == '-'

/-- The base of a glob of the common form `name-[0-9]*`.  One line break may end the glob. -/
def versionedBase? (text : Text) : Option Text :=
  let ending : Text := ['-', '[', '0', '-', '9', ']', '*']
  match Text.stripSuffix? ending text <|> Text.stripSuffix? (ending ++ ['\n']) text with
  | none => none
  | some base => if base ≠ [] ∧ base.all isBaseChar then some base else none

def pkgbase? : Leaf → Option Text
  | .exact name => (PkgName.ofText? name).map (·.base)
  | .relation wanted => some wanted.base
  | .range base _ _ => some base
  | .glob compiled => versionedBase? compiled.text
  | .value _ => none
  | .blank => none

def isCompound : Leaf → Bool
  | .value (.compound _ _) => true
  | _ => false

def same : Leaf → Leaf → Bool
  | .value a, .value b => a.same b
  | a, b => a == b

end Leaf

inductive Pattern where
  | leaf (test : Leaf)
  /-- The text is the whole as it is written. -/
  | alternation (text : Text) (branches : List Pattern)
  deriving Repr

namespace Pattern

def text : Pattern → Text
  | .leaf test => test.text
  | .alternation written _ => written

def pkgbase? : Pattern → Option Text
  | .leaf test => test.pkgbase?
  | .alternation _ _ => none

mutual

def leaves : Pattern → List Leaf
  | .leaf test => [test]
  | .alternation _ branches => leavesOfAll branches

def leavesOfAll : List Pattern → List Leaf
  | [] => []
  | branch :: branches => branch.leaves ++ leavesOfAll branches

end

mutual

def same : Pattern → Pattern → Bool
  | .leaf a, .leaf b => a.same b
  | .alternation a as, .alternation b bs => a == b && sameAll as bs
  | .leaf _, .alternation _ _ => false
  | .alternation _ _, .leaf _ => false

def sameAll : List Pattern → List Pattern → Bool
  | [], [] => true
  | a :: as, b :: bs => a.same b && sameAll as bs
  | [], _ :: _ => false
  | _ :: _, [] => false

end

mutual

/-- Whether a comparison of two patterns, from left to right, comes to two blanks before it
comes to a difference. -/
def meetBlanks : Pattern → Pattern → Bool
  | .leaf a, .leaf b => a == .blank && b == .blank
  | .alternation a as, .alternation b bs => a == b && anyMeetBlanks as bs
  | .leaf _, .alternation _ _ => false
  | .alternation _ _, .leaf _ => false

def anyMeetBlanks : List Pattern → List Pattern → Bool
  | [], _ => false
  | _ :: _, [] => false
  | a :: as, b :: bs => a.meetBlanks b || (a.same b && anyMeetBlanks as bs)

end

def hasBlank (pattern : Pattern) : Bool :=
  pattern.leaves.contains .blank

instance : Hashable Pattern where
  hash pattern := hash pattern.text

theorem leavesOfAll_eq_flatMap (branches : List Pattern) :
    leavesOfAll branches = branches.flatMap leaves := by
  induction branches with
  | nil => simp [leavesOfAll]
  | cons branch branches ih => simp [leavesOfAll, ih]

end Pattern

end Pkgsrc
