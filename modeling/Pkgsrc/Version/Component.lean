import Pkgsrc.Text.Decimal

/-!
# Pkgsrc.Version.Component -- what a version is made of

A version is cut into maximal runs of digits and of anything else (`runs`).  A lone `.` between two
runs only separates them (`significant`): `1.0.2nb3` has the components `1 0 2 nb 3`, while `1.`
keeps its final dot.
-/

namespace Pkgsrc

set_option autoImplicit false

inductive Component where
  | number (value : Nat)
  | word (text : Text)
  deriving DecidableEq, Repr

namespace Version

inductive Run where
  | digits (text : Text)
  | other (text : Text)
  deriving DecidableEq, Repr

def Run.text : Run → Text
  | .digits text => text
  | .other text => text

def Run.push (c : Char) : List Run → List Run
  | .digits text :: rest =>
    if c.isDigit then .digits (c :: text) :: rest else .other [c] :: .digits text :: rest
  | .other text :: rest =>
    if c.isDigit then .digits [c] :: .other text :: rest else .other (c :: text) :: rest
  | [] => if c.isDigit then [.digits [c]] else [.other [c]]

def runs (version : Text) : List Run :=
  version.foldr Run.push []

theorem flatten_push (c : Char) (rs : List Run) :
    ((Run.push c rs).map Run.text).flatten = c :: (rs.map Run.text).flatten := by
  cases rs with
  | nil => by_cases h : c.isDigit <;> simp [Run.push, Run.text, h]
  | cons r rest => cases r <;> by_cases h : c.isDigit <;> simp [Run.push, Run.text, h]

theorem flatten_runs (version : Text) : ((runs version).map Run.text).flatten = version := by
  induction version with
  | nil => rfl
  | cons c rest ih =>
    have step : runs (c :: rest) = Run.push c (runs rest) := rfl
    rw [step, flatten_push, ih]

/-- Without the lone dots that another run follows. -/
def significantInner : List Run → List Run
  | [] => []
  | [last] => [last]
  | run :: rest =>
    if run = .other ['.'] then significantInner rest else run :: significantInner rest

def significant : List Run → List Run
  | [] => []
  | first :: rest => first :: significantInner rest

def Run.component : Run → Except NumberFault Component
  | .digits text => (Decimal.read text).map .number
  | .other text => .ok (.word text)

def components (version : Text) : Except NumberFault (List Component) :=
  (significant (runs version)).mapM Run.component

/-- A dot stands between two numbers, and only there. -/
def spell : List Component → Text
  | [] => []
  | .number n :: .number m :: rest => Decimal.write n ++ '.' :: spell (.number m :: rest)
  | .number n :: rest => Decimal.write n ++ spell rest
  | .word text :: rest => text ++ spell rest

end Version

end Pkgsrc
