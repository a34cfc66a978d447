import Pkgsrc.Text.Digit

/-!
# Pkgsrc.Command.Flag -- the words of a command line

`--name` asks for the flag of that name, or for the only one whose name starts so, and `-abc` for
the flags with these letters, as does `-a=bc`.  No flag takes a value.  Any other word with a
hyphen is still an operand if it looks like a negative number or holds a blank.
-/

namespace Pkgsrc

set_option autoImplicit false

namespace Command

inductive Effect where
  | help
  | debug
  | version
  deriving DecidableEq, Repr

structure Flag where
  name : Text
  letter : Option Char
  effect : Effect
  deriving DecidableEq, Repr

def helpFlag : Flag :=
  ⟨"help".toList, some 'h', .help⟩

def globalFlags : List Flag :=
  [helpFlag, ⟨"debug".toList, some 'D', .debug⟩, ⟨"version".toList, none, .version⟩]

def innerFlags : List Flag :=
  [helpFlag]

inductive Word where
  | operand
  | flags (effects : List Effect)
  | ambiguous
  /-- It asks for a flag and for something that the flag has not. -/
  | misuse
  | surplus
  deriving DecidableEq, Repr

namespace Word

def isDigits (text : Text) : Bool :=
  text != [] && text.all Text.isDecimal

/-- Whether a word looks like a negative number: digits, or a point followed by digits and
perhaps preceded by some.  One line break may end it. -/
def isNegativeNumber (word : Text) : Bool :=
  match (Text.stripSuffix? ['\n'] word).getD word with
  | '-' :: digits =>
    isDigits digits ||
      match digits.dropWhile Text.isDecimal with
      | '.' :: decimals => isDigits decimals
      | _ => false
  | _ => false

def unclaimed (word : Text) : Word :=
  if isNegativeNumber word || word.contains ' ' then .operand else .surplus

def effect? (flags : List Flag) (letter : Char) : Option Effect :=
  (flags.find? fun flag => flag.letter == some letter).map (·.effect)

/-- A sign of equality between the letters does not count. -/
def laterLetters : Text → Text
  | '=' :: c :: rest => c :: rest
  | rest => rest

def ofShort (flags : List Flag) (word : Text) (c : Char) (rest : Text) : Word :=
  match effect? flags c with
  | none => unclaimed word
  | some effect =>
    match (laterLetters rest).mapM (effect? flags) with
    | some effects => .flags (effect :: effects)
    | none => .misuse

def named (flags : List Flag) (name : Text) : List Flag :=
  match flags.find? fun flag => flag.name == name with
  | some flag => [flag]
  | none => flags.filter fun flag => name.isPrefixOf flag.name

def ofLong (flags : List Flag) (word body : Text) : Word :=
  match named flags (body.takeWhile (· != '=')) with
  | [] => unclaimed word
  | [flag] => if body.contains '=' then .misuse else .flags [flag.effect]
  | _ => .ambiguous

def read (flags : List Flag) : Text → Word
  | '-' :: '-' :: body => ofLong flags ('-' :: '-' :: body) body
  | '-' :: c :: rest => ofShort flags ('-' :: c :: rest) c rest
  | _ => .operand

end Word

end Command

end Pkgsrc
