import Pkgsrc.Journal
import Pkgsrc.Text.Encoding

/-!
# Pkgsrc.Source.Web -- downloads

A request for a URL gets the next of the responses that wait under it, and where none waits it is
not answered.  A failure of the exchange is reported; others, of the system or of a value, are
passed on.
-/

namespace Pkgsrc

set_option autoImplicit false

namespace Web

inductive Cause where
  | exchange (message : Text)
  | system
  | value
  deriving DecidableEq, Repr

structure Response where
  chunks : List Bytes
  failure : Option Cause
  deriving DecidableEq, Repr

def Response.content (response : Response) : Except Cause Bytes :=
  match response.failure with
  | some cause => .error cause
  | none => .ok response.chunks.flatten

end Web

structure Web where
  waiting : List (Text × List Web.Response)
  requested : List Text
  notes : Journal
  deriving DecidableEq, Repr

namespace Web

def silent : Web :=
  ⟨[], [], #[]⟩

def take? (url : Text) : List (Text × List Response) → Option Response × List (Text × List Response)
  | [] => (none, [])
  | (other, responses) :: rest =>
    if other = url then
      match responses with
      | [] => (none, (other, []) :: rest)
      | response :: later => (some response, (other, later) :: rest)
    else ((take? url rest).1, (other, responses) :: (take? url rest).2)

def note (what : Note) : StateM Web Unit :=
  modify fun web => { web with notes := web.notes.push what }

def request (url : Text) : StateM Web (Except Cause Bytes) := fun web =>
  ((match (take? url web.waiting).1 with
    | none => .error (.exchange "unreachable".toList)
    | some response => response.content),
   { web with waiting := (take? url web.waiting).2, requested := web.requested ++ [url] })

def download (url : Text) : StateM Web (Except Cause Bytes) := do
  note (.downloading url)
  match ← request url with
  | .error cause => return .error cause
  | .ok bytes =>
    note (.downloaded url)
    return .ok bytes

end Web

end Pkgsrc
