import Pkgsrc.Source.File

/-!
# Pkgsrc.Source.Step -- a file that is used again and again

A step that fails does not end the use of the file.
-/

namespace Pkgsrc

set_option autoImplicit false

namespace File

inductive Step where
  | read (count : Option Int)
  | seek (offset whence : Int)
  | tell
  | name
  deriving DecidableEq, Repr

inductive Answer where
  | bytes (read : Bytes)
  | done
  | position (number : Nat)
  | name (text : Text)
  deriving DecidableEq, Repr

def perform : Step → Using Answer
  | .read count => return .bytes (← read count)
  | .seek offset whence => do
    seek offset whence
    return .done
  | .tell => return .position (← tell)
  | .name => return .name (← get).file.name

def afterStep (use : Use) (step : Step) : Use :=
  ((perform step).run use).2

def after (use : Use) (steps : List Step) : Use :=
  steps.foldl afterStep use

def results : Use → List Step → List (Except Fault Answer)
  | _, [] => []
  | use, step :: steps => ((perform step).run use).1 :: results (afterStep use step) steps

end File

end Pkgsrc
