import Pkgsrc.Report

/-!
# Pkgsrc.Journal -- what is noted while questions are answered

The level of a note says who wants to know, and its subject who noted it.
-/

namespace Pkgsrc

set_option autoImplicit false

inductive Note where
  /-- A pattern is read for want of a kept one. -/
  | parsing (pattern : Text)
  | mismatch (pattern candidate : Text) (cause : Report)
  | downloading (url : Text)
  | downloaded (url : Text)
  | nothingMatches (pattern : Text)
  | scanned (patterns : Nat)
  /-- A command failed; when debugging, the failure is shown without an introduction. -/
  | failed (cause : Report) (debugging : Bool)
  deriving DecidableEq, Repr

namespace Note

inductive Level where
  | debug
  | info
  | error
  deriving DecidableEq, Repr

inductive Subject where
  | matching
  | downloads
  | commands
  deriving DecidableEq, Repr

def level : Note → Level
  | .parsing _ => .debug
  | .mismatch _ _ _ => .debug
  | .downloading _ => .info
  | .downloaded _ => .info
  | .nothingMatches _ => .info
  | .scanned _ => .debug
  | .failed _ _ => .error

def subject : Note → Subject
  | .parsing _ => .matching
  | .mismatch _ _ _ => .matching
  | .downloading _ => .downloads
  | .downloaded _ => .downloads
  | .nothingMatches _ => .commands
  | .scanned _ => .commands
  | .failed _ _ => .commands

def text : Note → Text
  | .parsing pattern => "Parsing pattern ".toList ++ pattern
  | .mismatch pattern candidate cause =>
    pattern ++ " does not match ".toList ++ candidate ++ ": ".toList ++ cause.text
  | .downloading url => "Downloading: ".toList ++ url
  | .downloaded url => "Downloaded: ".toList ++ url
  | .nothingMatches pattern => "No package matches ".toList ++ pattern
  | .scanned patterns => "Scanned ".toList ++ Decimal.write patterns ++ " patterns".toList
  | .failed cause true => cause.text
  | .failed cause false => "Error: ".toList ++ cause.text

def isShown (debugging : Bool) (note : Note) : Bool :=
  debugging || note.level != .debug

end Note

abbrev Journal := Array Note

end Pkgsrc
