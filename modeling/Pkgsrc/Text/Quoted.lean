import Pkgsrc.Text.Printable

/-!
# Pkgsrc.Text.Quoted -- texts and tuples in messages

A character without a printed form is shown as its code, in the shortest form that holds it.
-/

namespace Pkgsrc

set_option autoImplicit false

namespace Text

def singleQuote : Char := '\x27'

def doubleQuote : Char := '\x22'

def quoteFor (text : Text) : Char :=
  if text.contains singleQuote && !text.contains doubleQuote then doubleQuote else singleQuote

/-- The last digits of a code, as many as the first number tells. -/
def hexDigits : Nat → Nat → Text
  | 0, _ => []
  | count + 1, code => hexDigits count (code / 16) ++ [Nat.digitChar (code % 16)]

def escapeCode (code : Nat) : Text :=
  if code < 0x100 then '\\' :: 'x' :: hexDigits 2 code
  else if code < 0x10000 then '\\' :: 'u' :: hexDigits 4 code
  else '\\' :: 'U' :: hexDigits 8 code

def escape (quote c : Char) : Text :=
  if c = quote ∨ c = '\\' then ['\\', c]
  else if c = '\n' then ['\\', 'n']
  else if c = '\r' then ['\\', 'r']
  else if c = '\t' then ['\\', 't']
  else if isPrintable c then [c]
  else escapeCode c.toNat

def quoted (text : Text) : Text :=
  let quote := quoteFor text
  quote :: text.flatMap (escape quote) ++ [quote]

def tuple : List Text → Text
  | [] => ['(', ')']
  | [shown] => '(' :: shown ++ [',', ')']
  | shown => '(' :: join [',', ' '] shown ++ [')']

end Text

end Pkgsrc
