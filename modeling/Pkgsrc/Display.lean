import Pkgsrc.Depend

/-!
# Pkgsrc.Display -- how names, paths and patterns are shown

Texts stand between quotes, and the branches of a pattern and the ranges of a set form tuples.
-/

namespace Pkgsrc

set_option autoImplicit false

def showParts (kind : String) (parts : List Text) : Text :=
  kind.toList ++ '(' :: Text.join [',', ' '] parts ++ [')']

def PkgName.shown (name : PkgName) : Text :=
  showParts "PkgName" [name.text.quoted]

def PkgPath.shown (path : PkgPath) : Text :=
  showParts "PkgPath" [path.text.quoted]

def Depend.shown (depend : Depend) : Text :=
  showParts "Depend" [depend.text.quoted]

namespace Glob

def shown (glob : Glob) : Text :=
  showParts "GlobPattern" [glob.text.quoted]

def Range.shown (range : CharRange) : Text :=
  Text.tuple [Text.quoted [range.first], Text.quoted [range.last]]

def RangeSet.shown (set : CharSet) : Text :=
  showParts "CharacterSet" [Text.tuple (set.ranges.map Range.shown),
    "negated=".toList ++ (Value.truth set.negated).shown]

end Glob

def Relation.shown (relation : Relation) : Text :=
  showParts "Relational" [relation.base.quoted, relation.operator.text.quoted,
    relation.version.quoted]

def Leaf.shown : Leaf → Text
  | .exact name => showParts "Exact" [name.quoted]
  | .relation wanted => wanted.shown
  | .range base lower upper => showParts "Range" [base.quoted, lower.shown, upper.shown]
  | .glob compiled => showParts "Glob" [compiled.text.quoted]
  | .value plain => plain.shown
  | .blank => showParts "Pattern" []

namespace Pattern

mutual

def shown : Pattern → Text
  | .leaf test => test.shown
  | .alternation text branches =>
    showParts "Alternation" [text.quoted, Text.tuple (shownAll branches)]

def shownAll : List Pattern → List Text
  | [] => []
  | branch :: branches => branch.shown :: shownAll branches

end

end Pattern

end Pkgsrc
