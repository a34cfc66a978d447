import Pkgsrc.Depend
import Pkgsrc.Matcher
import Pkgsrc.Source.Listing

/-!
# Pkgsrc.Command.Session -- what a running command reads and writes

A command may fail, and what it has printed and noted until then stays.
-/

namespace Pkgsrc

set_option autoImplicit false

namespace Command

inductive Failure where
  | malformed (fault : Malformed)
  | matching (fault : Matching.Fault)
  | file (fault : File.Fault)
  | reported (report : Report)
  /-- A report was to be made with the wrong number of values. -/
  | badReport
  | absent
  /-- An argument has taken the place of the function. -/
  | noFunction
  deriving DecidableEq, Repr

def Failure.report? : Failure → Option Report
  | .malformed fault => some (.ofMalformed fault)
  | .matching (.malformedName name) => some (.ofMalformedName name)
  | .matching _ => none
  | .file fault => fault.report?
  | .reported report => some report
  | _ => none

structure Session where
  files : Text → Option Bytes
  web : Web
  printed : Array Text

def Session.start (files : Text → Option Bytes) (web : Web) : Session :=
  ⟨files, web, #[]⟩

def Session.notes (session : Session) : Journal :=
  session.web.notes

abbrev Act (α : Type) : Type :=
  ExceptT Failure (StateM Session) α

namespace Act

def print (line : Text) : Act Unit :=
  modify fun session => { session with printed := session.printed.push line }

def note (what : Note) : Act Unit := fun session =>
  (.ok (), { session with web := ((Web.note what).run session.web).2 })

def settle {ε α : Type} (failure : ε → Failure) (result : Except ε α) : Act α :=
  ExceptT.mk (pure (result.mapError failure))

def need (operand : Option Text) : Act Text :=
  ExceptT.mk (pure (operand.elim (.error .absent) .ok))

def readEntries (url : Text) : Act (List Text) := fun session =>
  match (Listing.readEntries session.files .utf8 url).run session.web with
  | (result, web) => (result.mapError .file, { session with web })

/-- The answer, and the patterns that are kept then. -/
def ask {ε α : Type} (failure : ε → Failure) (kept : Option Cache) (question : Matcher.Ask ε α) :
    Act (α × Option Cache) := fun session =>
  match question.run ⟨kept, session.web.notes⟩ with
  | (result, matcher) =>
    (result.mapError failure |>.map (·, matcher.kept),
     { session with web := { session.web with notes := matcher.notes } })

end Act

end Command

end Pkgsrc
