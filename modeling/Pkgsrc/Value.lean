import Pkgsrc.Text.Quoted
import Pkgsrc.Text.Decimal

/-!
# Pkgsrc.Value -- plain values

Plain values are the arguments of reported failures, and they may stand where a pattern or a
package name is expected.  A truth value equals the number one or zero, and the order of a record's
fields does not count.
-/

namespace Pkgsrc

set_option autoImplicit false

inductive Value where
  | nothing
  | truth (holds : Bool)
  | integer (number : Int)
  | text (content : Text)
  /-- A list or a record: the text that shows it, and the key of all values that equal it. -/
  | compound (shown key : Text)
  deriving DecidableEq, Repr

namespace Value

def writeInteger : Int → Text
  | .ofNat n => Decimal.write n
  | .negSucc n => '-' :: Decimal.write (n + 1)

def shown : Value → Text
  | .nothing => "None".toList
  | .truth true => "True".toList
  | .truth false => "False".toList
  | .integer number => writeInteger number
  | .text content => content.quoted
  | .compound shown _ => shown

def spelled : Value → Text
  | .text content => content
  | value => value.shown

def key : Value → Text
  | .truth holds => Decimal.write holds.toNat
  | .compound _ key => key
  | value => value.shown

def same (a b : Value) : Bool :=
  a.key == b.key

def enclosed (opening closing : Char) (items : List Text) : Text :=
  opening :: Text.join [',', ' '] items ++ [closing]

def ofList (values : List Value) : Value :=
  .compound (enclosed '[' ']' (values.map shown)) (enclosed '[' ']' (values.map key))

def field (name value : Text) : Text :=
  name.quoted ++ [':', ' '] ++ value

def ofFields (fields : List (Text × Value)) : Value :=
  let sorted := fields.mergeSort fun a b => (compare a.1 b.1).isLE
  .compound (enclosed '{' '}' (fields.map fun entry => field entry.1 entry.2.shown))
    (enclosed '{' '}' (sorted.map fun entry => field entry.1 entry.2.key))

end Value

end Pkgsrc
