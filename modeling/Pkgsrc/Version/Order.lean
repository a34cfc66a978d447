import Pkgsrc.Version.Component

/-!
# Pkgsrc.Version.Order -- which of two versions is newer

A missing number counts as `0` and a word is newer than nothing, so this is no linear order: `1`
equals `1.0` and is older than `1a`, yet `1.0` is newer than `1a`.
-/

namespace Pkgsrc

set_option autoImplicit false

/-- Numbers by value, words by code point, a number after every word. -/
def Component.order : Component → Component → Ordering
  | .number m, .number n => compare m n
  | .word s, .word t => compare s t
  | .number _, .word _ => .gt
  | .word _, .number _ => .lt

namespace Version

def endAgainst : List Component → Ordering
  | [] => .eq
  | .number n :: rest => (compare 0 n).then (endAgainst rest)
  | .word _ :: _ => .lt

def compareComponents : List Component → List Component → Ordering
  | [], bs => endAgainst bs
  | as, [] => (endAgainst as).swap
  | a :: as, b :: bs => (a.order b).then (compareComponents as bs)

def order (a b : Text) : Except NumberFault Ordering := do
  let as ← components a
  let bs ← components b
  return compareComponents as bs

theorem swap_componentOrder (a b : Component) : (a.order b).swap = b.order a := by
  cases a <;> cases b <;> simp [Component.order, ← Std.OrientedOrd.eq_swap]

theorem swap_compareComponents (as bs : List Component) :
    (compareComponents as bs).swap = compareComponents bs as := by
  induction as generalizing bs with
  | nil => cases bs <;> simp [compareComponents, endAgainst]
  | cons a as ih =>
    cases bs with
    | nil => simp [compareComponents]
    | cons b bs => simp [compareComponents, Ordering.swap_then, swap_componentOrder, ih]

end Version

end Pkgsrc
