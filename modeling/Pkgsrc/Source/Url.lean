import Pkgsrc.Source.Location

/-!
# Pkgsrc.Source.Url -- the scheme and the path of a file's name

Control characters and blanks in front do not count, and tabs and line breaks nowhere.  A text
whose network location is malformed is no URL.  Nothing is decoded.
-/

namespace Pkgsrc

set_option autoImplicit false

structure Url where
  scheme : Text
  path : Text
  deriving DecidableEq, Repr

namespace Url

def isBlank (c : Char) : Bool :=
  c.toNat ≤ 0x20

def isDropped (c : Char) : Bool :=
  c == '\t' || c == '\r' || c == '\n'

def clean (text : Text) : Text :=
  (text.dropWhile isBlank).filter fun c => !isDropped c

def upTo (mark : Char) (text : Text) : Text :=
  text.takeWhile (· != mark)

def isSchemeChar (c : Char) : Bool :=
  c.isAlphanum || c == '+' || c == '-' || c == '.'

def isScheme : Text → Bool
  | [] => false
  | c :: rest => c.isAlpha && rest.all isSchemeChar

def splitScheme (text : Text) : Text × Text :=
  let before := upTo ':' text
  if isScheme before && text.contains ':' then
    (before.map Char.toLower, text.drop (before.length + 1))
  else ([], text)

def endsLocation (c : Char) : Bool :=
  c == '/' || c == '?' || c == '#'

def splitLocation : Text → Text × Text
  | '/' :: '/' :: rest =>
    (rest.takeWhile fun c => !endsLocation c, rest.dropWhile fun c => !endsLocation c)
  | text => ([], text)

/-- Where the last segment of a path may have parameters; without a scheme it may have them too. -/
def parameterSchemes : List Text :=
  ["", "ftp", "hdl", "prospero", "http", "imap", "https", "shttp", "rtsp", "rtsps", "rtspu",
    "sip", "sips", "mms", "sftp", "tel"].map String.toList

def dropParameters (path : Text) : Text :=
  match path.splitLast? '/' with
  | none => upTo ';' path
  | some (before, last) => before ++ '/' :: upTo ';' last

def ofText? (text : Text) : Option Url :=
  let (scheme, rest) := splitScheme (clean text)
  let (location, rest) := splitLocation rest
  if Location.isWellFormed location then
    let path := upTo '?' (upTo '#' rest)
    some ⟨scheme, if parameterSchemes.contains scheme then dropParameters path else path⟩
  else none

end Url

end Pkgsrc
