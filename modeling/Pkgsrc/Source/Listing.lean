import Pkgsrc.Source.File
import Pkgsrc.Text.Lines

/-!
# Pkgsrc.Source.Listing -- files with one entry per line

The entries of a file are its stripped lines but the empty ones.
-/

namespace Pkgsrc

set_option autoImplicit false

namespace Listing

def ofBytes (encoding : Encoding) (bytes : Bytes) : Except File.Fault (List Text) :=
  match encoding.decode bytes with
  | some text => .ok text.entries
  | none => .error .undecodable

def readEntries (files : Text → Option Bytes) (encoding : Encoding) (url : Text) :
    ExceptT File.Fault (StateM Web) (List Text) := fun web =>
  match File.openUrl files url with
  | .error fault => (.error fault, web)
  | .ok file =>
    match File.read none ⟨file, web⟩ with
    | (.error fault, use) => (.error fault, use.web)
    | (.ok bytes, use) => (ofBytes encoding bytes, use.web)

end Listing

end Pkgsrc
