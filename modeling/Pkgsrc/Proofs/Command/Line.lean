/-
# Pkgsrc.Proofs.Command.Line -- lines that run a command

A line that consists of the name of a command and of operands for it, with or without the flag for
debugging in front, runs that command with these operands (`Request.read_of_plain`).  No operand of
a command can be an ambiguous word of the line, since the one text that is short for several global
flags is short for a flag of the command as well (`Word.read_global_ne_ambiguous`).

The outcome of the line shows what the command has printed and noted, whether it is done, fails with
a report or crashes (`conclude_further_ok`, `conclude_further_reported`, `conclude_further_crashed`).
-/
import Pkgsrc.Command.Line
import Pkgsrc.Proofs.Command.Session

namespace Pkgsrc

set_option autoImplicit false

namespace Command

namespace Word

theorem unclaimed_ne_ambiguous (word : Text) : unclaimed word ≠ .ambiguous := by
  unfold unclaimed
  split <;> simp

theorem ofShort_ne_ambiguous (flags : List Flag) (word : Text) (c : Char) (rest : Text) :
    ofShort flags word c rest ≠ .ambiguous := by
  unfold ofShort
  split
  · exact unclaimed_ne_ambiguous word
  · split <;> simp

/-- The names of the global flags start differently. -/
theorem length_named_globalFlags_le (c : Char) (name : Text) :
    (named globalFlags (c :: name)).length ≤ 1 := by
  unfold named
  split
  · exact Nat.le_refl 1
  · have letters : ∀ flag ∈ globalFlags, (c :: name).isPrefixOf flag.name = true →
        flag.name.head? = some c := by
      intro flag _ short
      obtain ⟨rest, whole⟩ := List.isPrefixOf_iff_prefix.1 short
      rw [← whole]
      rfl
    simp only [globalFlags, List.forall_mem_cons] at letters
    obtain ⟨first, second, third, -⟩ := letters
    rw [globalFlags, List.filter_cons, List.filter_cons, List.filter_cons]
    split <;> split <;> split <;> simp_all [helpFlag]

/-- A word is ambiguous if nothing stands behind its hyphens, or only a sign of equality. -/
theorem takeWhile_eq_nil_of_ambiguous {word body : Text}
    (ambiguous : ofLong globalFlags word body = .ambiguous) :
    body.takeWhile (· != '=') = [] := by
  unfold ofLong at ambiguous
  cases name : body.takeWhile (· != '=') with
  | nil => rfl
  | cons c rest =>
      have few := length_named_globalFlags_le c rest
      rw [name] at ambiguous
      match listed : named globalFlags (c :: rest) with
      | [] =>
          rw [listed] at ambiguous
          exact absurd ambiguous (unclaimed_ne_ambiguous word)
      | [flag] =>
          simp only [listed] at ambiguous
          split at ambiguous <;> cases ambiguous
      | first :: second :: others => simp [listed] at few

/-- An operand of a command is no ambiguous word of the line. -/
theorem read_global_ne_ambiguous {word : Text} (operand : read innerFlags word = .operand) :
    read globalFlags word ≠ .ambiguous := by
  intro ambiguous
  unfold read at ambiguous
  split at ambiguous
  · rename_i body
    have unnamed := takeWhile_eq_nil_of_ambiguous ambiguous
    have short : named innerFlags [] = [helpFlag] := rfl
    rw [read, ofLong, unnamed, short] at operand
    change (if body.contains '=' then Word.misuse else .flags [.help]) = .operand at operand
    split at operand <;> cases operand
  · exact ofShort_ne_ambiguous _ _ _ _ ambiguous
  · cases ambiguous

end Word

namespace Words

/-- The words before the mark are operands where all words can be taken. -/
theorem operand_of_plain {words : List Text} {items : List Item}
    (plain : read words = .plain items) :
    ∀ word ∈ words.takeWhile (· != markText), Word.read innerFlags word = .operand := by
  induction words generalizing items with
  | nil => simp
  | cons word rest ih =>
      rw [read] at plain
      by_cases mark : word = markText
      · simp [mark]
      · rw [if_neg mark] at plain
        rw [List.takeWhile_cons_of_pos (by simpa using mark), List.forall_mem_cons]
        cases kind : Word.read innerFlags word with
        | operand =>
            rw [kind] at plain
            cases others : read rest with
            | plain items => exact ⟨rfl, ih others⟩
            | surplus => simp [others, push] at plain
            | help => simp [others, push] at plain
            | misuse => simp [others, push] at plain
        | surplus =>
            rw [kind] at plain
            cases others : read rest <;> simp [others, afterSurplus] at plain
        | flags effects => simp [kind] at plain
        | ambiguous => simp [kind] at plain
        | misuse => simp [kind] at plain

theorem mark_not_mem_of_plain {words : List Text}
    (plain : read words = .plain (words.map .operand)) : markText ∉ words := by
  induction words with
  | nil => simp
  | cons word rest ih =>
      rw [read] at plain
      by_cases mark : word = markText
      · simp [mark] at plain
      · rw [if_neg mark] at plain
        cases kind : Word.read innerFlags word with
        | operand =>
            cases others : read rest with
            | plain items =>
                have same : items = rest.map .operand := by
                  simpa [kind, others, push] using plain
                have absent := ih (same ▸ others)
                simp [absent, Ne.symm mark]
            | surplus => simp [kind, others, push] at plain
            | help => simp [kind, others, push] at plain
            | misuse => simp [kind, others, push] at plain
        | surplus => cases others : read rest <;> simp [kind, others, afterSurplus] at plain
        | flags effects => simp [kind] at plain
        | ambiguous => simp [kind] at plain
        | misuse => simp [kind] at plain

end Words

namespace Request

/-- A line without or with the flag for debugging. -/
def flagged (debugging : Bool) (words : List Text) : List Text :=
  if debugging then ['-', 'D'] :: words else words

theorem isAmbiguous_eq_false {name : Text} {words : List Text} {items : List Item}
    (plain : Words.read words = .plain items) (command : Word.read globalFlags name = .operand)
    (debugging : Bool) : isAmbiguous (flagged debugging (name :: words)) = false := by
  have others : isAmbiguous words = false := by
    rw [isAmbiguous, List.any_eq_false]
    intro word inside
    simpa using Word.read_global_ne_ambiguous (Words.operand_of_plain plain word inside)
  have behind : isAmbiguous (name :: words) = false := by
    rw [isAmbiguous, List.takeWhile_cons]
    split
    · rw [List.any_cons, command]
      exact others
    · rfl
  cases debugging with
  | false => exact behind
  | true => exact behind

/-- A command gets its operands, and debugs if it is told to. -/
theorem read_of_plain {commands : List Command} {command : Command} {name : Text}
    {words : List Text} {items : List Item} {arguments : Arguments}
    (plain : Words.read words = .plain items) (isName : Word.read globalFlags name = .operand)
    (notMark : name ≠ markText) (found : find? commands name = some command)
    (taken : Arguments.ofItems? command.parameters items = some arguments) (debugging : Bool) :
    read commands (flagged debugging (name :: words)) =
      .run command arguments (arguments.debugging debugging) := by
  have ofName : ∀ flag, readFrom commands flag false (name :: words) =
      .run command arguments (arguments.debugging flag) := by
    intro flag
    rw [readFrom, if_neg notMark, isName]
    simp only [Request.ofName, found, ofCommand, plain, taken]
  rw [read, isAmbiguous_eq_false plain isName debugging]
  cases debugging with
  | false => exact ofName false
  | true => exact ofName true

end Request

/-- The outcome shows what has been printed, and the notes that are shown. -/
theorem Outcome.ofSession_further (ending : Ending) (debugging : Bool) (session : Session)
    (lines : List Text) (notes : Journal) :
    Outcome.ofSession ending debugging (session.further lines notes) =
      ⟨ending, session.printed.toList ++ lines, notes.toList.filter (Note.isShown debugging),
        session.web.requested⟩ := by
  rw [ofSession, Session.further_printed, Session.further_notes, Session.further_requested]

section Conclude

variable (debugging : Bool) (session : Session) (lines : List Text) (notes : Journal)

theorem conclude_further_ok :
    conclude debugging (session.further lines notes) (.ok ()) =
      ⟨.done, session.printed.toList ++ lines, notes.toList.filter (Note.isShown debugging),
        session.web.requested⟩ :=
  Outcome.ofSession_further .done debugging session lines notes

/-- A failure that is reported is noted last. -/
theorem conclude_further_reported {failure : Failure} {report : Report}
    (reported : failure.report? = some report) :
    conclude debugging (session.further lines notes) (.error failure) =
      ⟨.failed, session.printed.toList ++ lines,
        (notes.toList ++ [Note.failed report debugging]).filter (Note.isShown debugging),
        session.web.requested⟩ := by
  simp only [conclude, reported]
  rw [Act.run_note, Session.further_further, List.append_nil, Outcome.ofSession_further,
    Session.further_notes, Array.toList_push]

theorem conclude_further_crashed {failure : Failure} (unreported : failure.report? = none) :
    conclude debugging (session.further lines notes) (.error failure) =
      ⟨.crashed failure, session.printed.toList ++ lines,
        notes.toList.filter (Note.isShown debugging), session.web.requested⟩ := by
  simp only [conclude, unreported]
  rw [Outcome.ofSession_further]

end Conclude

end Command

end Pkgsrc
