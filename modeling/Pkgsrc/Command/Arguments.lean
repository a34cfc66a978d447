import Pkgsrc.Command.Flag

/-!
# Pkgsrc.Command.Arguments -- operands for the parameters of a command

A greedy parameter takes all operands that the later ones do not need.  `--` among the words behind
a command is a mark: all words after it are operands.  It belongs to the slice of the parameter that
takes the operand before it, or to the first one.  A parameter does not get the first `--` of its
slice, whether that is the mark or an operand; so one for one operand may be left without any.

Of several arguments of one name the last counts.
-/

namespace Pkgsrc

set_option autoImplicit false

namespace Command

inductive Arity where
  | one
  | any
  | several
  deriving DecidableEq, Repr

def Arity.least : Arity → Nat
  | .one => 1
  | .any => 0
  | .several => 1

structure Parameter where
  name : Text
  arity : Arity
  deriving DecidableEq, Repr

/-! ## Slices -/

def markText : Text :=
  ['-', '-']

inductive Item where
  | operand (text : Text)
  | mark
  deriving DecidableEq, Repr

namespace Item

def text : Item → Text
  | .operand text => text
  | .mark => markText

def isOperand : Item → Bool
  | .operand _ => true
  | .mark => false

/-- Cut behind some operands and what marks follow them. -/
def cut : Nat → List Item → List Item × List Item
  | count, .mark :: rest => (.mark :: (cut count rest).1, (cut count rest).2)
  | count + 1, .operand text :: rest =>
    (.operand text :: (cut count rest).1, (cut count rest).2)
  | 0, .operand text :: rest => ([], .operand text :: rest)
  | _, [] => ([], [])

end Item

def needed : List Parameter → Nat
  | [] => 0
  | parameter :: others => parameter.arity.least + needed others

def share (arity : Arity) (later given : Nat) : Nat :=
  match arity with
  | .one => 1
  | _ => given - later

def slices : List Parameter → List Item → Option (List (Parameter × List Item))
  | [], [] => some []
  | [], _ :: _ => none
  | parameter :: later, items =>
    let given := items.countP Item.isOperand
    let count := share parameter.arity (needed later) given
    if parameter.arity.least ≤ count ∧ count ≤ given then
      (slices later (Item.cut count items).2).map fun others =>
        (parameter, (Item.cut count items).1) :: others
    else none

/-! ## Arguments -/

inductive Argument where
  | one (operand : Text)
  | many (operands : List Text)
  deriving DecidableEq, Repr

namespace Argument

def operands : Argument → List Text
  | .one operand => [operand]
  | .many operands => operands

def isFilled : Argument → Bool
  | .one operand => operand != []
  | .many operands => operands != []

def ofSlice (arity : Arity) (slice : List Item) : Argument :=
  match arity, (slice.map Item.text).erase markText with
  | .one, [operand] => .one operand
  | _, operands => .many operands

end Argument

abbrev Arguments := List (Text × Argument)

namespace Arguments

def ofItems? (parameters : List Parameter) (items : List Item) : Option Arguments :=
  (slices parameters items).map fun taken =>
    taken.map fun (parameter, slice) => (parameter.name, .ofSlice parameter.arity slice)

def find? (arguments : Arguments) (name : Text) : Option Argument :=
  arguments.reverse.lookup name

def one? (arguments : Arguments) (name : Text) : Option Text :=
  match arguments.find? name with
  | some (.one operand) => some operand
  | _ => none

def many (arguments : Arguments) (name : Text) : List Text :=
  ((arguments.find? name).map Argument.operands).getD []

/-! ## Reserved names -/

def commandName : Text := "command".toList

def debugName : Text := "debug".toList

def functionName : Text := "func".toList

def isReserved (name : Text) : Bool :=
  name == commandName || name == debugName || name == functionName

def passed : Arguments → Arguments
  | [] => []
  | (name, argument) :: later =>
    if isReserved name || later.any (·.1 == name) then passed later
    else (name, argument) :: passed later

/-- An argument of the name `debug` decides, if there is one, and else the flag. -/
def debugging (flagged : Bool) (arguments : Arguments) : Bool :=
  ((arguments.find? debugName).map Argument.isFilled).getD flagged

/-- A parameter for any number of operands leaves the function in its place when it gets none. -/
def replacesFunction (arguments : Arguments) (parameters : List Parameter) : Bool :=
  match parameters.reverse.find? (·.name == functionName) with
  | none => false
  | some parameter => parameter.arity != .any || arguments.many functionName != []

end Arguments

end Command

end Pkgsrc
