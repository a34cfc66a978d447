import Pkgsrc.Text.Decimal

/-!
# Pkgsrc.Source.Location -- network locations

The network location of a URL says nothing about a file, but it has to be well formed: what stands
in brackets is the literal of an address, and no character is compatible with a text in which a
delimiter of URLs occurs, such as a full-width slash.
-/

namespace Pkgsrc

set_option autoImplicit false

namespace Location

/-! ## Addresses -/

def isHexDigit (c : Char) : Bool :=
  c.isDigit || ('a' ≤ c && c ≤ 'f') || ('A' ≤ c && c ≤ 'F')

def isByte (field : Text) : Bool :=
  field != [] && field.length ≤ 3 && field.all Char.isDigit &&
    (field == ['0'] || field.head? != some '0') && Decimal.value field < 256

def isIPv4 (text : Text) : Bool :=
  let fields := Text.fields '.' text
  fields.length == 4 && fields.all isByte

def isGroup (group : Text) : Bool :=
  group != [] && group.length ≤ 4 && group.all isHexDigit

/-- An IPv4 address at the end stands for two groups. -/
def groups? (text : Text) : Option (List Text) :=
  let groups := Text.fields ':' text
  match groups.getLast? with
  | none => none
  | some last =>
    if !last.contains '.' then some groups
    else if isIPv4 last then some (groups.dropLast ++ [['0'], ['0']])
    else none

def besideGap? (groups : List Text) : Option Nat :=
  if groups = [[]] then some 0
  else if groups.all isGroup then some groups.length
  else none

def gaps (groups : List Text) : List Nat :=
  (List.range groups.length).filter fun place =>
    0 < place && place + 1 < groups.length && groups[place]? == some []

/-- Eight groups, or fewer and one gap. -/
def areGroups (groups : List Text) : Bool :=
  match gaps groups with
  | [] => groups.length == 8 && groups.all isGroup
  | [place] =>
    match besideGap? (groups.take place), besideGap? (groups.drop (place + 1)) with
    | some before, some behind => before + behind < 8
    | _, _ => false
  | _ => false

def isIPv6 (text : Text) : Bool :=
  let zone := text.dropWhile (· != '%')
  zone != ['%'] && !(zone.drop 1).contains '%' &&
    ((groups? (text.takeWhile (· != '%'))).map areGroups).getD false

def isIPvFuture : Text → Bool
  | 'v' :: rest =>
    let version := rest.takeWhile isHexDigit
    version != [] &&
      match rest.drop version.length with
      | '.' :: address => address != [] && !address.contains '\n'
      | _ => false
  | _ => false

def isLiteral (text : Text) : Bool :=
  if text.head? = some 'v' then isIPvFuture text else isIPv6 text

def bracketed (location : Text) : Text :=
  ((location.dropWhile (· != '[')).drop 1).takeWhile (· != ']')

def hasGoodBrackets (location : Text) : Bool :=
  if location.contains '[' && location.contains ']' then isLiteral (bracketed location)
  else !location.contains '[' && !location.contains ']'

/-! ## Delimiters in disguise -/

/-- The codes of the characters that are compatible with a text in which `/`, `?`, `#`, `@` or
`:` occurs, but for these five themselves. -/
def disguises : List Nat :=
  [0x2047, 0x2048, 0x2049, 0x2100, 0x2101, 0x2105, 0x2106, 0x2A74, 0xFE13, 0xFE16, 0xFE55,
    0xFE56, 0xFE5F, 0xFE6B, 0xFF03, 0xFF0F, 0xFF1A, 0xFF1F, 0xFF20]

def isWellFormed (location : Text) : Bool :=
  hasGoodBrackets location && !location.any fun c => disguises.contains c.toNat

end Location

end Pkgsrc
