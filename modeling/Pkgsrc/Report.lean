import Pkgsrc.Malformed
import Pkgsrc.Text.Template

/-!
# Pkgsrc.Report -- failures as they are reported

To ask for a kind is to ask for everything below it.  A kind with a sentence puts the values into
its places, and shows the bare sentence when they do not fit or when there are none; a kind without
sentence shows the values as a tuple.
-/

namespace Pkgsrc

set_option autoImplicit false

namespace Report

inductive Kind where
  | failure
  | pattern
  | malformedPattern
  | matching
  | malformedName
  | invalidPkgPath
  | invalidDepend
  | file
  | unknownScheme
  /-- A file that cannot be had from where it is. -/
  | place
  | localFile
  | remoteFile
  deriving DecidableEq, Repr

namespace Kind

def above : Kind → List Kind
  | .failure => []
  | .pattern => [.failure]
  | .malformedPattern => [.pattern, .failure]
  | .matching => [.failure]
  | .malformedName => [.matching, .failure]
  | .invalidPkgPath => [.failure]
  | .invalidDepend => [.failure]
  | .file => [.failure]
  | .unknownScheme => [.file, .failure]
  | .place => [.file, .failure]
  | .localFile => [.place, .file, .failure]
  | .remoteFile => [.place, .file, .failure]

def ancestors (kind : Kind) : List Kind :=
  kind :: kind.above

def sentence : Kind → Text
  | .malformedPattern => "Invalid pattern \"%s\": %s".toList
  | .malformedName => "Malformed package name: %s".toList
  | .invalidPkgPath => "Invalid package path: %s".toList
  | .invalidDepend => "Invalid dependency: %s".toList
  | _ => []

end Kind

end Report

structure Report where
  kind : Report.Kind
  sentence : Text
  values : List Value
  position : Value
  deriving DecidableEq, Repr

namespace Report

/-- A malformed pattern takes the pattern, the reason and possibly a position, which is not shown,
and a malformed name takes the name.  The other kinds take any number of values. -/
def ofValues? (kind : Kind) (sentence : Text) (values : List Value) : Option Report :=
  match kind, values with
  | .malformedPattern, [pattern, reason] => some ⟨kind, sentence, [pattern, reason], .nothing⟩
  | .malformedPattern, [pattern, reason, position] =>
    some ⟨kind, sentence, [pattern, reason], position⟩
  | .malformedPattern, _ => none
  | .malformedName, [name] => some ⟨kind, sentence, [name], .nothing⟩
  | .malformedName, _ => none
  | _, _ => some ⟨kind, sentence, values, .nothing⟩

def text (report : Report) : Text :=
  if report.sentence = [] then
    if report.values = [] then [] else Text.tuple (report.values.map Value.shown)
  else if report.values = [] then report.sentence
  else (Template.fill report.sentence report.values).getD report.sentence

def named (report : Report) : List (Text × Value) :=
  match report.kind, report.values with
  | .malformedPattern, [pattern, reason] =>
    [("pattern".toList, pattern), ("reason".toList, reason),
      ("position".toList, report.position)]
  | .malformedName, [name] => [("pkgname".toList, name)]
  | _, _ => []

/-! ## The reports of this library -/

def ofText (kind : Kind) (shown : Text) : Report :=
  ⟨kind, kind.sentence, [.text shown], .nothing⟩

def ofMalformed (fault : Malformed) : Report :=
  ⟨.malformedPattern, Kind.sentence .malformedPattern,
    [.text fault.pattern, .text fault.reason.text], .integer fault.position⟩

def ofMalformedName (name : Text) : Report :=
  ofText .malformedName name

end Report

end Pkgsrc
