import Pkgsrc.Report

/-!
# Pkgsrc.PkgPath -- where a package lives

A path is a category and a package in it, `pkgtools/pkg_install`, and may also be written as seen
from another package, `../../pkgtools/pkg_install`.  A slash may end it, and one line break behind
the slash.
-/

namespace Pkgsrc

set_option autoImplicit false

structure PkgPath where
  category : Text
  package : Text
  deriving DecidableEq, Repr

namespace PkgPath

def isName : Text → Bool
  | [] => false
  | c :: rest => c != '.' && !(c :: rest).contains '/'

def up : Text :=
  ['.', '.', '/', '.', '.', '/']

def text (path : PkgPath) : Text :=
  path.category ++ '/' :: path.package

def fullText (path : PkgPath) : Text :=
  up ++ path.text

def withoutUp (text : Text) : Text :=
  (up.isPrefixOf? text).getD text

def ofNames? (category package : Text) : Option PkgPath :=
  if isName category && isName package then some ⟨category, package⟩ else none

def ofText? (text : Text) : Option PkgPath :=
  match Text.fields '/' (withoutUp text) with
  | [category, package] => ofNames? category package
  | [category, package, rest] => if Text.atEnd rest then ofNames? category package else none
  | _ => none

def ofText (text : Text) : Except Report PkgPath :=
  match ofText? text with
  | some path => .ok path
  | none => .error (.ofText .invalidPkgPath text)

instance : Hashable PkgPath where
  hash path := hash path.text

end PkgPath

end Pkgsrc
