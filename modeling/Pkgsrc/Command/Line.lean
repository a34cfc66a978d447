import Pkgsrc.Command.Registry

/-!
# Pkgsrc.Command.Line -- command lines

Flags take effect from left to right, so what shows the version or the help comes before any
complaint about a later word, and after a misuse before it; surplus words are complained about
last.  But a word that is ambiguous as a global flag, wherever it stands before the first `--`,
makes the line unusable from the start.  Before a command `--` is itself the name of one.

A failure that is reported ends a command with a note, any other one crashes it; what was printed
until then stays.
-/

namespace Pkgsrc

set_option autoImplicit false

namespace Command

def programVersion : Text :=
  "0.1.0".toList

inductive Request where
  | run (command : Command) (arguments : Arguments) (debugging : Bool)
  | showVersion
  | showHelp
  | unusable

inductive Words where
  | plain (items : List Item)
  | surplus
  | help
  | misuse
  deriving DecidableEq, Repr

namespace Words

def push (operand : Text) : Words → Words
  | .plain items => .plain (.operand operand :: items)
  | words => words

def afterSurplus : Words → Words
  | .plain _ => .surplus
  | words => words

def read : List Text → Words
  | [] => .plain []
  | word :: rest =>
    if word = markText then .plain (.mark :: rest.map .operand)
    else
      match Word.read innerFlags word with
      | .operand => (read rest).push word
      | .surplus => (read rest).afterSurplus
      | .flags _ => .help
      | .ambiguous => .misuse
      | .misuse => .misuse

end Words

namespace Request

/-- `surplus` tells whether a word before the command is neither flag nor command. -/
def ofCommand (command : Command) (flagged surplus : Bool) (words : List Text) : Request :=
  match Words.read words with
  | .help => .showHelp
  | .misuse => .unusable
  | .surplus => .unusable
  | .plain items =>
    match Arguments.ofItems? command.parameters items, surplus with
    | some arguments, false => .run command arguments (arguments.debugging flagged)
    | _, _ => .unusable

def ofName (commands : List Command) (flagged surplus : Bool) (name : Text)
    (words : List Text) : Request :=
  match find? commands name with
  | none => .unusable
  | some command => ofCommand command flagged surplus words

/-- Without a request among its effects, a word asks to debug. -/
def ofEffects (effects : List Effect) : Option Request :=
  match effects.find? (· ≠ .debug) with
  | some .version => some .showVersion
  | some .help => some .showHelp
  | _ => none

def readFrom (commands : List Command) (flagged surplus : Bool) : List Text → Request
  | [] => .unusable
  | word :: rest =>
    if word = markText then
      if rest = [] then .unusable else ofName commands flagged surplus word rest
    else
      match Word.read globalFlags word with
      | .operand => ofName commands flagged surplus word rest
      | .surplus => readFrom commands flagged true rest
      | .ambiguous => .unusable
      | .misuse => .unusable
      | .flags effects => (ofEffects effects).getD (readFrom commands true surplus rest)

def isAmbiguous (line : List Text) : Bool :=
  (line.takeWhile (· != markText)).any fun word => Word.read globalFlags word == .ambiguous

def read (commands : List Command) (line : List Text) : Request :=
  if isAmbiguous line then .unusable else readFrom commands false false line

end Request

/-! ## Running -/

inductive Ending where
  | done
  /-- A failure has been reported. -/
  | failed
  | unusable
  | crashed (failure : Failure)
  deriving DecidableEq, Repr

structure Outcome where
  ending : Ending
  printed : List Text
  notes : List Note
  requested : List Text
  deriving DecidableEq, Repr

def Outcome.ofSession (ending : Ending) (debugging : Bool) (session : Session) : Outcome :=
  ⟨ending, session.printed.toList, session.notes.toList.filter (Note.isShown debugging),
    session.web.requested⟩

def Outcome.still (ending : Ending) (printed : List Text) : Outcome :=
  ⟨ending, printed, [], []⟩

def conclude (debugging : Bool) (session : Session) : Except Failure Unit → Outcome
  | .ok () => .ofSession .done debugging session
  | .error failure =>
    match failure.report? with
    | none => .ofSession (.crashed failure) debugging session
    | some report =>
      .ofSession .failed debugging ((Act.note (.failed report debugging)).run session).2

def run (commands : List Command) (session : Session) (line : List Text) : Outcome :=
  match Request.read commands line with
  | .showVersion => .still .done [programVersion]
  | .showHelp => .still .done []
  | .unusable => .still .unusable []
  | .run command arguments debugging =>
    match (command.perform arguments).run session with
    | (result, session) => conclude debugging session result

end Command

end Pkgsrc
