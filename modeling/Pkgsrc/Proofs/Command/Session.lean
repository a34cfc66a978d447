/-
# Pkgsrc.Proofs.Command.Session -- what the actions of a command do to its session

An action prints lines and makes notes, and apart from reading files that is all it does to a
session (`Session.further`).  Lines add up and the notes are replaced (`Session.further_further`),
so a run of actions prints what each of them prints, in order.
-/
import Pkgsrc.Command.Session
import Pkgsrc.Proofs.Results
import Pkgsrc.Proofs.Source.Listing

namespace Pkgsrc

set_option autoImplicit false

namespace Command

/-- The session after some more lines, with these notes. -/
def Session.further (session : Session) (lines : List Text) (notes : Journal) : Session :=
  { session with
    printed := session.printed ++ lines.toArray
    web := { session.web with notes } }

section Further

variable (session : Session) (lines more : List Text) (notes later : Journal)

@[simp] theorem Session.further_notes : (session.further lines notes).notes = notes :=
  rfl

@[simp] theorem Session.further_files : (session.further lines notes).files = session.files :=
  rfl

@[simp] theorem Session.further_requested :
    (session.further lines notes).web.requested = session.web.requested :=
  rfl

@[simp] theorem Session.further_printed :
    (session.further lines notes).printed.toList = session.printed.toList ++ lines := by
  simp [further]

@[simp] theorem Session.further_further :
    (session.further lines notes).further more later = session.further (lines ++ more) later := by
  simp [further]

theorem Session.further_nil :
    session.further [] notes = { session with web := { session.web with notes } } := by
  simp [further]

end Further

/-! ## Runs of actions -/

namespace Act

theorem run_settle {ε α : Type} (failure : ε → Failure) (result : Except ε α) (session : Session) :
    (settle failure result).run session = (result.mapError failure, session) :=
  rfl

theorem run_print (line : Text) (session : Session) :
    (print line).run session = (.ok (), session.further [line] session.notes) := by
  change (Except.ok (), _) = _
  simp [Session.further, Session.notes]

theorem run_note (what : Note) (session : Session) :
    (note what).run session = (.ok (), session.further [] (session.notes.push what)) := by
  rw [Session.further_nil]
  rfl

/-- A question leaves its answer, the patterns that are kept then, and its notes. -/
theorem run_ask {ε α : Type} (failure : ε → Failure) (kept : Option Cache)
    (question : Matcher.Ask ε α) (session : Session) :
    (ask failure kept question).run session =
      (((question.run ⟨kept, session.notes⟩).1.mapError failure).map
          (·, (question.run ⟨kept, session.notes⟩).2.kept),
        session.further [] (question.run ⟨kept, session.notes⟩).2.notes) := by
  rw [Session.further_nil]
  rfl

theorem run_readEntries {session : Session} {url : Text} {lines : List Text} {later : Web}
    (holds : Listing.Holds session.files session.web url lines later) :
    (readEntries url).run session = (.ok lines, { session with web := later }) := by
  have read := Listing.readEntries_of_holds holds
  change readEntries url session = _
  rw [readEntries, read]
  rfl

end Act

end Command

end Pkgsrc
