import Pkgsrc.Version.Order

/-!
# Pkgsrc.Version.Sorting -- lists of versions in order

Versions that compare equal keep the order in which they were given, also when the newest come
first.  A list of at most one version is sorted without a look at its components.
-/

namespace Pkgsrc

set_option autoImplicit false

namespace Version

inductive Direction where
  | oldestFirst
  | newestFirst
  deriving DecidableEq, Repr

def Direction.allows (direction : Direction) (a b : List Component) : Bool :=
  match direction with
  | .oldestFirst => compareComponents a b != .gt
  | .newestFirst => compareComponents a b != .lt

def keyed (versions : List Text) : Except NumberFault (List (Text × List Component)) :=
  versions.mapM fun version => do return (version, ← components version)

def sort (direction : Direction) : List Text → Except NumberFault (List Text)
  | [] => .ok []
  | [version] => .ok [version]
  | versions => do
    let pairs ← keyed versions
    return (pairs.mergeSort fun a b => direction.allows a.2 b.2).map (·.1)

def mostRecent? (versions : List Text) : Except NumberFault (Option Text) := do
  return (← sort .newestFirst versions).head?

end Version

end Pkgsrc
