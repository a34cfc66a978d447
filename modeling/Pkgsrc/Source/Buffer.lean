import Pkgsrc.Text.Encoding

/-!
# Pkgsrc.Source.Buffer -- bytes with a position

The position may be past the end, where nothing is left to read.  From the start a negative offset
is refused; the other moves stop at the start.  Counts, offsets and positions are 64-bit numbers and
the numbers of anchors 32-bit ones; what does not fit is too large.
-/

namespace Pkgsrc

set_option autoImplicit false

structure Buffer where
  bytes : Bytes
  position : Nat
  deriving DecidableEq, Repr

namespace Buffer

def ofBytes (bytes : Bytes) : Buffer :=
  ⟨bytes, 0⟩

inductive Whence where
  | start
  | current
  | stop
  deriving DecidableEq, Repr

def Whence.ofCode? (code : Int) : Option Whence :=
  if code = 0 then some .start
  else if code = 1 then some .current
  else if code = 2 then some .stop
  else none

inductive Fault where
  | refused
  | tooLarge
  deriving DecidableEq, Repr

def fits (bits : Nat) (number : Int) : Bool :=
  -Int.pow 2 (bits - 1) ≤ number && number < Int.pow 2 (bits - 1)

def left (buffer : Buffer) : Bytes :=
  buffer.bytes.drop buffer.position

/-- Without a count, or with a negative one, all that is left. -/
def next (buffer : Buffer) (count : Option Int) : Bytes :=
  match count with
  | some (.ofNat n) => buffer.left.take n
  | _ => buffer.left

def advance (buffer : Buffer) (taken : Bytes) : Buffer :=
  { buffer with position := buffer.position + taken.length }

def read (buffer : Buffer) (count : Option Int) : Except Fault (Bytes × Buffer) :=
  if count.all (fits 64) then
    .ok (buffer.next count, buffer.advance (buffer.next count))
  else .error .tooLarge

def shift (position : Nat) (offset : Int) : Except Fault Nat :=
  if fits 64 (position + offset) then .ok (position + offset).toNat else .error .tooLarge

def target (buffer : Buffer) (offset : Int) : Whence → Except Fault Nat
  | .start => if offset < 0 then .error .refused else .ok offset.toNat
  | .current => shift buffer.position offset
  | .stop => shift buffer.bytes.length offset

def seek (buffer : Buffer) (offset whence : Int) : Except Fault Buffer :=
  if fits 64 offset && fits 32 whence then
    match Whence.ofCode? whence with
    | none => .error .refused
    | some anchor =>
      (buffer.target offset anchor).map fun position => { buffer with position }
  else .error .tooLarge

end Buffer

end Pkgsrc
