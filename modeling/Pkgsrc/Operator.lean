import Pkgsrc.Text

/-!
# Pkgsrc.Operator -- the six comparisons of a dependency pattern

`>` and `>=` may set the lower bound of a range, `<` and `<=` the upper one.
-/

namespace Pkgsrc

set_option autoImplicit false

inductive Operator where
  | lt
  | le
  | gt
  | ge
  | eq
  | ne
  deriving DecidableEq, Repr

namespace Operator

def text : Operator → Text
  | .lt => ['<']
  | .le => ['<', '=']
  | .gt => ['>']
  | .ge => ['>', '=']
  | .eq => ['=', '=']
  | .ne => ['!', '=']

def ofText? (written : Text) : Option Operator :=
  [lt, le, gt, ge, eq, ne].find? fun operator => operator.text == written

def unknownMessage (written : Text) : Text :=
  "Unknown operator: ".toList ++ written

def holds : Operator → Ordering → Bool
  | .lt, order => order == .lt
  | .le, order => order != .gt
  | .gt, order => order == .gt
  | .ge, order => order != .lt
  | .eq, order => order == .eq
  | .ne, order => order != .eq

def isLower (operator : Operator) : Bool :=
  operator == .gt || operator == .ge

def isUpper (operator : Operator) : Bool :=
  operator == .lt || operator == .le

theorem isLower_iff {operator : Operator} :
    operator.isLower = true ↔ operator = .gt ∨ operator = .ge := by
  simp [isLower]

theorem isUpper_iff {operator : Operator} :
    operator.isUpper = true ↔ operator = .lt ∨ operator = .le := by
  simp [isUpper]

end Operator

end Pkgsrc
