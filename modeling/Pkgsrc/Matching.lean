import Pkgsrc.Pattern
import Pkgsrc.Report

/-!
# Pkgsrc.Matching -- whether a package name satisfies a pattern

An exact name and a glob are tried on the whole candidate, whatever it is.  For a comparison or a
range it has to be a package name, and one with another base is refused without a look at its
version.  Of several leaves the first one that matches or faults decides
(`firstMatch_eq_firstLeaf`).
-/

namespace Pkgsrc

set_option autoImplicit false

namespace Matching

inductive Fault where
  | malformedName (candidate : Text)
  | notPattern (value : Value)
  | number (fault : NumberFault)
  deriving DecidableEq, Repr

def notPatternMessage (value : Value) : Text :=
  "Not a pattern: ".toList ++ value.shown

def ofNumber {α : Type} : Except NumberFault α → Except Fault α
  | .ok value => .ok value
  | .error fault => .error (.number fault)

def readName (candidate : Text) : Except Fault PkgName :=
  match PkgName.ofText? candidate with
  | some name => .ok name
  | none => .error (.malformedName candidate)

end Matching

open Matching

/-- The upper bound is looked at only if the lower one is satisfied. -/
def Relation.holdBoth (lower upper : Relation) (version : Text) : Except NumberFault Bool := do
  if ← lower.holds version then upper.holds version else return false

def Leaf.accepts (leaf : Leaf) (candidate : Text) : Except Fault Bool :=
  match leaf with
  | .exact name => .ok (name == candidate)
  | .glob compiled => .ok (compiled.accepts candidate)
  | .relation wanted => do
    let name ← readName candidate
    if name.base = wanted.base then ofNumber (wanted.holds name.version) else return false
  | .range base lower upper => do
    let name ← readName candidate
    if name.base = base then ofNumber (lower.holdBoth upper name.version) else return false
  | .value plain => .error (.notPattern plain)
  | .blank => .error (.notPattern .nothing)

def Leaf.firstLeaf (candidate : Text) : List Leaf → Except Fault (Option Leaf)
  | [] => .ok none
  | leaf :: leaves =>
    match leaf.accepts candidate with
    | .error fault => .error fault
    | .ok true => .ok (some leaf)
    | .ok false => firstLeaf candidate leaves

namespace Pattern

mutual

def firstMatch : Pattern → Text → Except Fault (Option Leaf)
  | .leaf test, candidate => do
    return if ← test.accepts candidate then some test else none
  | .alternation _ branches, candidate => firstAmong branches candidate

def firstAmong : List Pattern → Text → Except Fault (Option Leaf)
  | [], _ => .ok none
  | branch :: branches, candidate => do
    match ← branch.firstMatch candidate with
    | some found => return some found
    | none => firstAmong branches candidate

end

def accepts (pattern : Pattern) (candidate : Text) : Except Fault Bool :=
  (pattern.firstMatch candidate).map Option.isSome

theorem firstLeaf_append (candidate : Text) (as bs : List Leaf) :
    Leaf.firstLeaf candidate (as ++ bs) =
      match Leaf.firstLeaf candidate as with
      | .error fault => .error fault
      | .ok (some found) => .ok (some found)
      | .ok none => Leaf.firstLeaf candidate bs := by
  induction as with
  | nil => simp [Leaf.firstLeaf]
  | cons a as ih =>
    simp only [List.cons_append, Leaf.firstLeaf]
    split <;> simp_all

mutual

/-- The tree is decided by its leaves alone. -/
theorem firstMatch_eq_firstLeaf (pattern : Pattern) (candidate : Text) :
    pattern.firstMatch candidate = Leaf.firstLeaf candidate pattern.leaves := by
  cases pattern with
  | leaf test =>
    simp only [firstMatch, leaves, Leaf.firstLeaf]
    cases test.accepts candidate with
    | error fault => rfl
    | ok held => cases held <;> rfl
  | alternation written branches =>
    simp only [firstMatch, leaves]
    exact firstAmong_eq_firstLeaf branches candidate

theorem firstAmong_eq_firstLeaf (branches : List Pattern) (candidate : Text) :
    firstAmong branches candidate = Leaf.firstLeaf candidate (leavesOfAll branches) := by
  cases branches with
  | nil => rfl
  | cons branch branches =>
    simp only [firstAmong, leavesOfAll, firstLeaf_append,
      firstMatch_eq_firstLeaf branch candidate, firstAmong_eq_firstLeaf branches candidate]
    cases Leaf.firstLeaf candidate branch.leaves with
    | error fault => rfl
    | ok found => cases found <;> rfl

end

end Pattern

end Pkgsrc
