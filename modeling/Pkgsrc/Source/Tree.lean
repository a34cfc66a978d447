import Pkgsrc.Text.Encoding

/-!
# Pkgsrc.Source.Tree -- the files below a directory

A path names a file by a walk from the root.  Every place that the walk leaves has to be a
directory, so a file followed by a slash is not found, and the walk may not leave the tree.
-/

namespace Pkgsrc

set_option autoImplicit false

structure Tree where
  files : List (List Text × Bytes)
  deriving DecidableEq, Repr

namespace Tree

def isIdle (segment : Text) : Bool :=
  segment == [] || segment == ['.']

def ofList (files : List (Text × Bytes)) : Tree :=
  ⟨files.map fun file => ((Text.fields '/' file.1).filter fun segment => !isIdle segment, file.2)⟩

def isDirectory (tree : Tree) (place : List Text) : Bool :=
  place == [] || tree.files.any fun file => place.isPrefixOf file.1 && place != file.1

def walk (tree : Tree) : List Text → List Text → Option (List Text)
  | place, [] => some place
  | place, segment :: rest =>
    if !tree.isDirectory place then none
    else if isIdle segment then walk tree place rest
    else if segment = ['.', '.'] then
      if place = [] then none else walk tree place.dropLast rest
    else walk tree (place ++ [segment]) rest

def contentAt (tree : Tree) (place : List Text) : Option Bytes :=
  (tree.files.find? fun file => file.1 == place).map (·.2)

def file? (tree : Tree) (path : Text) : Option Bytes :=
  if path.head? = some '/' then none
  else (tree.walk [] (Text.fields '/' path)).bind tree.contentAt

end Tree

end Pkgsrc
