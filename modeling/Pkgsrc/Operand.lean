import Pkgsrc.Display

/-!
# Pkgsrc.Operand -- values of any kind compared with each other

Values of different kinds differ, with two exceptions.  A text is read as what it is compared with:
as a name beside a name and as a path beside a path, from either side.  A name on the left is
compared with a comparison pattern as if that were the name made of its base and version; a pattern
on the left differs from every name.
-/

namespace Pkgsrc

set_option autoImplicit false

inductive Operand where
  | pkgName (name : PkgName)
  | pkgPath (path : PkgPath)
  | depend (entry : Depend)
  | pattern (tree : Pattern)
  | glob (compiled : Glob)
  | charSet (chars : Glob.CharSet)
  | value (plain : Value)

namespace Operand

/-- A plain value in the place of a pattern is an operand by itself. -/
def ofPattern : Pattern → Operand
  | .leaf (.value plain) => .value plain
  | tree => .pattern tree

def baseVersion? : Operand → Option (Text × Text)
  | .pkgName name => some (name.base, name.version)
  | .pattern (.leaf (.relation wanted)) => some (wanted.base, wanted.version)
  | _ => none

def isNameLike (operand : Operand) : Bool :=
  operand.baseVersion?.isSome

def asName? : Operand → Option (Text × Text)
  | .value (.text written) => (PkgName.ofText? written).map fun name => (name.base, name.version)
  | operand => operand.baseVersion?

def asPath? : Operand → Option PkgPath
  | .pkgPath path => some path
  | .value (.text written) => PkgPath.ofText? written
  | _ => none

end Operand

/-- Never, when the operand has no base or another one. -/
def PkgName.holdsOf (operator : Operator) (name : PkgName) (operand : Operand) :
    Except NumberFault Bool :=
  match operand.asName? with
  | none => .ok false
  | some (base, version) =>
    (name.orderAgainst base version).map fun order => order.any operator.holds

def PkgPath.sameAs (path : PkgPath) (operand : Operand) : Bool :=
  operand.asPath? == some path

namespace Operand

inductive Fault where
  | number (fault : NumberFault)
  /-- Two patterns without text have met. -/
  | blanks
  deriving DecidableEq, Repr

def sameName (name : PkgName) (operand : Operand) : Except Fault Bool :=
  (name.holdsOf .eq operand).mapError .number

def same : Operand → Operand → Except Fault Bool
  | .pkgName name, other => sameName name other
  | .pkgPath path, other => .ok (path.sameAs other)
  | .depend a, .depend b => .ok (a.same b)
  | .pattern a, .pattern b => if a.meetBlanks b then .error .blanks else .ok (a.same b)
  | .glob a, .glob b => .ok (a.text == b.text)
  | .charSet a, .charSet b => .ok (a == b)
  | .value a, .value b => .ok (a.same b)
  | .value a, .pkgName name => sameName name (.value a)
  | .value a, .pkgPath path => .ok (path.sameAs (.value a))
  | _, _ => .ok false

def differ (a b : Operand) : Except Fault Bool :=
  (same a b).map not

inductive Kind where
  | pkgName
  | pkgPath
  | depend
  | glob
  | charSet
  | alternation
  | exact
  | relation
  | range
  | globPattern
  | blank
  | nothing
  | truth
  | integer
  | text
  | compound
  deriving DecidableEq, Repr

def Kind.ofValue : Value → Kind
  | .nothing => .nothing
  | .truth _ => .truth
  | .integer _ => .integer
  | .text _ => .text
  | .compound _ _ => .compound

def Kind.ofPattern : Pattern → Kind
  | .alternation _ _ => .alternation
  | .leaf (.exact _) => .exact
  | .leaf (.relation _) => .relation
  | .leaf (.range _ _ _) => .range
  | .leaf (.glob _) => .globPattern
  | .leaf (.value plain) => .ofValue plain
  | .leaf .blank => .blank

def kind : Operand → Kind
  | .pkgName _ => .pkgName
  | .pkgPath _ => .pkgPath
  | .depend _ => .depend
  | .glob _ => .glob
  | .charSet _ => .charSet
  | .pattern tree => .ofPattern tree
  | .value plain => .ofValue plain

/-- A number that equal operands of one kind share.  Lists and records have none, nor have
patterns with one of them for a leaf. -/
def code? : Operand → Option UInt64
  | .pkgName name => some (hash name)
  | .pkgPath path => some (hash path)
  | .depend entry => some (hash entry)
  | .pattern tree => if tree.leaves.any Leaf.isCompound then none else some (hash tree)
  | .glob compiled => some (hash compiled.text)
  | .charSet chars =>
    some (mixHash (hash chars.negated) (hash (chars.ranges.map fun r => (r.first, r.last))))
  | .value (.compound _ _) => none
  | .value plain => some (hash plain.key)

def shown : Operand → Text
  | .pkgName name => name.shown
  | .pkgPath path => path.shown
  | .depend entry => entry.shown
  | .pattern tree => tree.shown
  | .glob compiled => compiled.shown
  | .charSet chars => chars.shown
  | .value plain => plain.shown

end Operand

end Pkgsrc
