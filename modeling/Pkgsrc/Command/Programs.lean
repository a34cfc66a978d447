import Pkgsrc.Command.Session

/-!
# Pkgsrc.Command.Programs -- what the commands do

A malformed pattern makes all of them fail.  A malformed name makes only `printMatches` fail; to the
others it is a name that does not match.  The second operand may be absent: `printOrder` then fails,
and to `scan` it is no file.
-/

namespace Pkgsrc

set_option autoImplicit false

namespace Command

def printAccepted (pattern : Pattern) : List Text → Act Unit
  | [] => return ()
  | name :: names => do
    if ← Act.settle .matching (pattern.accepts name) then
      Act.print name
    printAccepted pattern names

def printMatches (pattern : Text) (names : List Text) : Act Unit := do
  let parsed ← Act.settle .malformed (Pattern.parse pattern)
  printAccepted parsed names

def printBest (pattern : Text) (names : List Text) : Act Unit := do
  let _ ← Act.settle .malformed (Pattern.parse pattern)
  match (← Act.ask .matching none (Matcher.best? pattern names)).1 with
  | none => Act.note (.nothingMatches pattern)
  | some best => Act.print best

def orderSymbol : Ordering → Text
  | .lt => ['<']
  | .eq => ['=']
  | .gt => ['>']

def printOrder (a : Text) (b : Option Text) : Act Unit := do
  let _ ← Act.settle (fun fault => .matching (.number fault)) (Version.components a)
  let b ← Act.need b
  let order ← Act.settle (fun fault => .matching (.number fault)) (Version.order a b)
  Act.print (orderSymbol order)

def scanNames (pattern : Text) (kept : Option Cache) : List Text → Act (Option Cache)
  | [] => return kept
  | name :: names => do
    let (held, kept) ← Act.ask .matching kept (Matcher.accepts pattern name)
    if held then
      Act.print (pattern ++ ' ' :: name)
    scanNames pattern kept names

def scanPatterns (names : List Text) (kept : Option Cache) : List Text → Act (Option Cache)
  | [] => return kept
  | pattern :: patterns => do
    let (_, kept) ← Act.ask .malformed kept (Matcher.parsed pattern)
    let kept ← scanNames pattern kept names
    scanPatterns names kept patterns

/-- How the path of an absent operand is shown. -/
def absentPath : Text :=
  ['b', Text.singleQuote, Text.singleQuote]

/-- Each distinct pattern is parsed once. -/
def scan (patterns : Text) (names : Option Text) : Act Unit := do
  let names ← match names with
    | none => throw (.file (.notAFile absentPath))
    | some names => Act.readEntries names
  let patterns ← Act.readEntries patterns
  let kept ← scanPatterns names (some .empty) patterns
  Act.note (.scanned ((kept.map Cache.size).getD 0))

end Command

end Pkgsrc
