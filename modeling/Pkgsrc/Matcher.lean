import Pkgsrc.Cache
import Pkgsrc.Journal
import Pkgsrc.Matching

/-!
# Pkgsrc.Matcher -- questions about patterns that are given as texts

A pattern or a name that is malformed is no fault here: it is noted, and nothing matches.  Before
anything is parsed, `mayMatch` refuses some of the candidates that the pattern cannot accept, and
nothing is noted then.
-/

namespace Pkgsrc

set_option autoImplicit false

structure Matcher where
  kept : Option Cache
  notes : Journal

namespace Matcher

def forgetful : Matcher :=
  ⟨none, #[]⟩

def keeping (cache : Cache) : Matcher :=
  ⟨some cache, #[]⟩

abbrev Ask (ε α : Type) : Type :=
  ExceptT ε (StateM Matcher) α

def note {ε : Type} (what : Note) : Ask ε Unit :=
  modify fun matcher => { matcher with notes := matcher.notes.push what }

def settle {ε α : Type} (result : Except ε α) : Ask ε α :=
  ExceptT.mk (pure result)

/-! ## Parsed patterns -/

def parseNew (cache : Cache) (text : Text) (absent : cache.find? text = none) :
    Ask Malformed Pattern := do
  note (.parsing text)
  match isParse : Pattern.parse text with
  | .error fault => throw fault
  | .ok pattern =>
    let more := cache.insert ⟨text, pattern, isParse⟩ absent
    modify fun matcher => { matcher with kept := some more }
    return pattern

/-- A matcher that keeps patterns parses a text only if it keeps none for it, and notes that. -/
def parsed (text : Text) : Ask Malformed Pattern := do
  match (← get).kept with
  | none => settle (Pattern.parse text)
  | some cache =>
    match found : cache.find? text with
    | some known => return known.pattern
    | none => parseNew cache text found

/-! ## One candidate -/

/-- A character that stands for itself in a pattern of any kind. -/
def isPlain (c : Char) : Bool :=
  c.isAlphanum || c == '-'

/-- As many characters as told are compared, up to the first of the pattern that is not plain. -/
def agree : Nat → Text → Text → Bool
  | 0, _, _ => true
  | _ + 1, [], _ => true
  | count + 1, p :: pattern, candidate =>
    if isPlain p then
      match candidate with
      | [] => false
      | c :: rest => p == c && agree count pattern rest
    else true

def mayMatch (pattern candidate : Text) : Bool :=
  agree 2 pattern candidate

def refuse (pattern candidate : Text) (cause : Report) : Ask Matching.Fault Bool := do
  note (.mismatch pattern candidate cause)
  return false

def judge (pattern candidate : Text) (result : Except Matching.Fault Bool) :
    Ask Matching.Fault Bool :=
  match result with
  | .error (.malformedName name) => refuse pattern candidate (.ofMalformedName name)
  | .error fault => throw fault
  | .ok held => return held

def tryMatch (pattern candidate : Text) : Ask Matching.Fault Bool := fun matcher =>
  match (parsed pattern).run matcher with
  | (.error fault, matcher) => refuse pattern candidate (.ofMalformed fault) matcher
  | (.ok read, matcher) => judge pattern candidate (read.accepts candidate) matcher

def accepts (pattern candidate : Text) : Ask Matching.Fault Bool :=
  if mayMatch pattern candidate then tryMatch pattern candidate else return false

/-! ## Many candidates -/

def versionOf (candidate : Text) : Text :=
  ((candidate.splitLast? '-').map (·.2)).getD []

/-- The second has to be newer to win. -/
def newer (best candidate : Text) : Except NumberFault Text := do
  match ← Version.order (versionOf candidate) (versionOf best) with
  | .gt => return candidate
  | _ => return best

def bestFrom (pattern : Text) : Option Text → List Text → Ask Matching.Fault (Option Text)
  | best, [] => return best
  | best, candidate :: others => do
    if ← accepts pattern candidate then
      match best with
      | none => bestFrom pattern (some candidate) others
      | some known =>
        bestFrom pattern (some (← settle (Matching.ofNumber (newer known candidate)))) others
    else bestFrom pattern best others

def best? (pattern : Text) (candidates : List Text) : Ask Matching.Fault (Option Text) :=
  bestFrom pattern none candidates

end Matcher

end Pkgsrc
