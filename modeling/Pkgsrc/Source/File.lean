import Pkgsrc.Source.Buffer
import Pkgsrc.Source.Tree
import Pkgsrc.Source.Url
import Pkgsrc.Source.Web

/-!
# Pkgsrc.Source.File -- files wherever they are

A stored file is read as a whole when it is opened, a remote one is downloaded when it is first
used; as long as a download fails, every use tries again.  A bare file has a name and no content:
moves in it do nothing, and it cannot be read.
-/

namespace Pkgsrc

set_option autoImplicit false

namespace File

inductive Fault where
  | badUrl
  | unknownScheme (scheme : Text)
  | notAFile (path : Text)
  | download (cause : Web.Cause)
  | noContent
  | buffer (fault : Buffer.Fault)
  | undecodable
  deriving DecidableEq, Repr

def Fault.report? : Fault → Option Report
  | .unknownScheme scheme =>
    some (.ofText .unknownScheme ("No backend found for scheme: ".toList ++ scheme))
  | .notAFile path => some (.ofText .localFile ("Not a file: ".toList ++ path))
  | .download (.exchange message) => some (.ofText .remoteFile message)
  | _ => none

end File

inductive File where
  | bare (name : Text)
  | stored (name : Text) (buffer : Buffer)
  | remote (name : Text) (buffer : Option Buffer)
  deriving DecidableEq, Repr

namespace File

def name : File → Text
  | .bare name => name
  | .stored name _ => name
  | .remote name _ => name

/-! ## Opening -/

/-- `files` gives the content of the file that a path names. -/
def openPath (files : Text → Option Bytes) (name path : Text) : Except Fault File :=
  match files path with
  | some bytes => .ok (.stored name (.ofBytes bytes))
  | none => .error (.notAFile path)

def openStored (files : Text → Option Bytes) (name : Text) : Except Fault File :=
  match Url.ofText? name with
  | none => .error .badUrl
  | some url => openPath files name url.path

def schemeOf (url : Url) : Text :=
  if url.scheme = [] then "file".toList else url.scheme

def openUrl (files : Text → Option Bytes) (name : Text) : Except Fault File :=
  match Url.ofText? name with
  | none => .error .badUrl
  | some url =>
    let scheme := schemeOf url
    if scheme = "file".toList then openPath files name url.path
    else if scheme = "http".toList ∨ scheme = "https".toList then .ok (.remote name none)
    else .error (.unknownScheme scheme)

/-! ## Using -/

structure Use where
  file : File
  web : Web
  deriving DecidableEq, Repr

abbrev Using (α : Type) : Type :=
  ExceptT Fault (StateM Use) α

/-- A remote file is downloaded for it. -/
def buffer : Using (Option Buffer) := fun use =>
  match use.file with
  | .bare _ => (.ok none, use)
  | .stored _ buffer => (.ok (some buffer), use)
  | .remote _ (some buffer) => (.ok (some buffer), use)
  | .remote name none =>
    match Web.download name use.web with
    | (.error cause, web) => (.error (.download cause), { use with web })
    | (.ok bytes, web) => (.ok (some (.ofBytes bytes)), ⟨.remote name (some (.ofBytes bytes)), web⟩)

def withBuffer (buffer : Buffer) : File → File
  | .bare name => .bare name
  | .stored name _ => .stored name buffer
  | .remote name _ => .remote name (some buffer)

def setBuffer (buffer : Buffer) : Using Unit :=
  modify fun use => { use with file := use.file.withBuffer buffer }

def read (count : Option Int) : Using Bytes := do
  match ← buffer with
  | none => throw .noContent
  | some content =>
    match content.read count with
    | .error fault => throw (.buffer fault)
    | .ok (bytes, content) =>
      setBuffer content
      return bytes

def seek (offset whence : Int) : Using Unit := do
  match ← buffer with
  | none => return ()
  | some content =>
    match content.seek offset whence with
    | .error fault => throw (.buffer fault)
    | .ok moved => setBuffer moved

def tell : Using Nat := do
  match ← buffer with
  | none => return 0
  | some content => return content.position

end File

end Pkgsrc
