import Pkgsrc.Matcher

/-!
# Pkgsrc.Matcher.Step -- a matcher that is asked again and again

A matcher that keeps patterns is asked for them and told to forget them, and it tries candidates.
-/

namespace Pkgsrc

set_option autoImplicit false

namespace Matcher

def kept? (matcher : Matcher) (text : Text) : Option Pattern :=
  (matcher.kept.bind (·.find? text)).map Parsed.pattern

def size (matcher : Matcher) : Nat :=
  (matcher.kept.map Cache.size).getD 0

def clear (matcher : Matcher) : Matcher :=
  { matcher with kept := matcher.kept.map fun _ => .empty }

inductive Step where
  | get (text : Text)
  | contains (text : Text)
  | size
  | clear
  | accepts (pattern candidate : Text)
  | best (pattern : Text) (candidates : List Text)
  deriving DecidableEq, Repr

inductive Answer where
  | pattern (read : Pattern)
  | truth (holds : Bool)
  | count (number : Nat)
  | done
  | best (candidate : Option Text)
  deriving Repr

inductive Failure where
  | malformed (fault : Malformed)
  | matching (fault : Matching.Fault)
  deriving DecidableEq, Repr

def asStep {ε α : Type} (failed : ε → Failure) (answered : α → Answer) (question : Ask ε α) :
    Ask Failure Answer := fun matcher =>
  match question.run matcher with
  | (result, later) => ((result.map answered).mapError failed, later)

def perform : Step → Ask Failure Answer
  | .get text => asStep .malformed .pattern (parsed text)
  | .contains text => return .truth ((← get).kept? text).isSome
  | .size => return .count (← get).size
  | .clear => do
    modify Matcher.clear
    return .done
  | .accepts pattern candidate => asStep .matching .truth (accepts pattern candidate)
  | .best pattern candidates => asStep .matching .best (best? pattern candidates)

def afterStep (matcher : Matcher) (step : Step) : Matcher :=
  ((perform step).run matcher).2

def served (steps : List Step) : Matcher :=
  steps.foldl afterStep (keeping .empty)

end Matcher

end Pkgsrc
