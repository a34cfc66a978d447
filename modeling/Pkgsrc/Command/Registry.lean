import Pkgsrc.Command.Arguments
import Pkgsrc.Command.Programs

/-!
# Pkgsrc.Command.Registry -- the commands by their names

A command is registered under the name of the function that carries it out, or under a name of its
own.  Commands that are registered together have different names.
-/

namespace Pkgsrc

set_option autoImplicit false

structure Command where
  name : Text
  parameters : List Command.Parameter
  action : Command.Arguments → Command.Act Unit

namespace Command

inductive Registration where
  | bare
  | parameters (parameters : List Parameter)
  | named (name : Text) (parameters : List Parameter)
  deriving DecidableEq, Repr

def register (function : Text) (action : Arguments → Act Unit) : Registration → Command
  | .bare => ⟨function, [], action⟩
  | .parameters taken => ⟨function, taken, action⟩
  | .named name taken => ⟨name, taken, action⟩

def areDistinct (commands : List Command) : Bool :=
  (commands.map (·.name)).Nodup

def find? (commands : List Command) (name : Text) : Option Command :=
  commands.find? fun command => command.name == name

def names (commands : List Command) : List Text :=
  (commands.map (·.name)).mergeSort fun a b => (compare a b).isLE

def perform (command : Command) (arguments : Arguments) : Act Unit :=
  if arguments.replacesFunction command.parameters then throw .noFunction
  else command.action arguments.passed

def standard : List Command :=
  let pattern : Parameter := ⟨"pattern".toList, .one⟩
  let names : Parameter := ⟨"pkgnames".toList, .several⟩
  [⟨"match".toList, [pattern, names], fun arguments => do
      printMatches (← Act.need (arguments.one? pattern.name)) (arguments.many names.name)⟩,
    ⟨"best".toList, [pattern, names], fun arguments => do
      printBest (← Act.need (arguments.one? pattern.name)) (arguments.many names.name)⟩,
    ⟨"compare".toList, [⟨"version_a".toList, .one⟩, ⟨"version_b".toList, .one⟩], fun arguments => do
      printOrder (← Act.need (arguments.one? "version_a".toList))
        (arguments.one? "version_b".toList)⟩,
    ⟨"scan".toList, [⟨"patterns".toList, .one⟩, ⟨"pkgnames".toList, .one⟩], fun arguments => do
      scan (← Act.need (arguments.one? "patterns".toList))
        (arguments.one? "pkgnames".toList)⟩]

end Command

end Pkgsrc
