import Pkgsrc.Version.Order
import Pkgsrc.Operator

/-!
# Pkgsrc.PkgName -- package names

The base may contain hyphens and the version may not, so the last hyphen of a text separates them
(`ofText?_eq_some_iff`).  Names of different bases are neither equal nor ordered.
-/

namespace Pkgsrc

set_option autoImplicit false

structure PkgName where
  base : Text
  version : Text
  noHyphen : '-' ∉ version
  deriving DecidableEq, Repr

namespace PkgName

def text (name : PkgName) : Text :=
  name.base ++ '-' :: name.version

def ofText? (text : Text) : Option PkgName :=
  match cut : text.splitLast? '-' with
  | none => none
  | some (base, version) => some ⟨base, version, Text.not_mem_of_splitLast? cut⟩

theorem text_of_ofText? {text : Text} {name : PkgName} (read : ofText? text = some name) :
    name.text = text := by
  unfold ofText? at read
  split at read
  · cases read
  · rename_i cut
    cases read
    exact Text.append_of_splitLast? cut

theorem ofText?_eq_some_iff {text : Text} {name : PkgName} :
    ofText? text = some name ↔ name.text = text := by
  constructor
  · exact text_of_ofText?
  · rintro rfl
    have cut := Text.splitLast?_append_cons name.noHyphen name.base
    unfold ofText? text
    split
    · rename_i failed
      cases cut.symm.trans failed
    · rename_i found
      cases cut.symm.trans found
      rfl

theorem ofText?_eq_none_iff {text : Text} : ofText? text = none ↔ '-' ∉ text := by
  rw [← Text.splitLast?_eq_none]
  unfold ofText?
  split <;> simp_all

/-! ## Revisions -/

/-- Zero when no number follows the last `nb`, nothing when there is no `nb`. -/
def revision (name : PkgName) : Except NumberFault (Option Nat) :=
  match Text.afterLast? ['n', 'b'] name.version with
  | none => .ok none
  | some digits =>
    if digits ≠ [] ∧ digits.all Char.isDigit then (Decimal.read digits).map some
    else .ok (some 0)

/-! ## Comparison -/

def orderAgainst (name : PkgName) (base version : Text) :
    Except NumberFault (Option Ordering) :=
  if name.base = base then (Version.order name.version version).map some else .ok none

def holds (operator : Operator) (a b : PkgName) : Except NumberFault Bool :=
  (a.orderAgainst b.base b.version).map fun order => order.any operator.holds

def same (a b : PkgName) : Except NumberFault Bool :=
  holds .eq a b

instance : Hashable PkgName where
  hash name := hash name.base

/-! ## Distinct names -/

def isAmong (name : PkgName) : List PkgName → Except NumberFault Bool
  | [] => .ok false
  | other :: others => do
    if ← other.same name then return true else isAmong name others

/-- The names that equal none of those before them or in `seen`. -/
def distinctFrom (seen : List PkgName) : List PkgName → Except NumberFault (List PkgName)
  | [] => .ok []
  | name :: rest => do
    if ← name.isAmong seen then distinctFrom seen rest
    else return name :: (← distinctFrom (seen ++ [name]) rest)

def distinct (names : List PkgName) : Except NumberFault (List PkgName) :=
  distinctFrom [] names

end PkgName

end Pkgsrc
