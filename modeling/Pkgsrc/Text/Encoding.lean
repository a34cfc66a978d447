import Pkgsrc.Text

/-!
# Pkgsrc.Text.Encoding -- texts as bytes

In Latin-1 each byte is the character of that code, and ASCII has the codes below 128 only.  A byte
order mark is a character like any other.
-/

namespace Pkgsrc

set_option autoImplicit false

abbrev Bytes := List UInt8

inductive Encoding where
  | utf8
  | latin1
  | ascii
  deriving DecidableEq, Repr

namespace Encoding

def charOf (byte : UInt8) : Char :=
  Char.ofNat byte.toNat

def decode : Encoding → Bytes → Option Text
  | .utf8, bytes => bytes.toByteArray.utf8Decode?.map Array.toList
  | .latin1, bytes => some (bytes.map charOf)
  | .ascii, bytes => if bytes.all (· < 128) then some (bytes.map charOf) else none

def encode : Encoding → Text → Option Bytes
  | .utf8, text => some (text.flatMap String.utf8EncodeChar)
  | .latin1, text =>
    if text.all (·.toNat < 256) then some (text.map fun c => UInt8.ofNat c.toNat) else none
  | .ascii, text =>
    if text.all (·.toNat < 128) then some (text.map fun c => UInt8.ofNat c.toNat) else none

theorem charOf_ofNat {c : Char} (small : c.toNat < 256) : charOf (UInt8.ofNat c.toNat) = c := by
  have : (UInt8.ofNat c.toNat).toNat = c.toNat := by simp; omega
  rw [charOf, this, Char.ofNat_toNat]

theorem map_charOf_ofNat {text : Text} (small : ∀ c ∈ text, c.toNat < 256) :
    (text.map fun c => UInt8.ofNat c.toNat).map charOf = text := by
  induction text with
  | nil => rfl
  | cons c rest ih =>
    simp only [List.map_cons, charOf_ofNat (small c List.mem_cons_self),
      ih fun d held => small d (List.mem_cons_of_mem c held)]

/-- What is written is read back. -/
theorem decode_encode {encoding : Encoding} {text : Text} {bytes : Bytes}
    (written : encoding.encode text = some bytes) : encoding.decode bytes = some text := by
  cases encoding with
  | utf8 =>
    simp only [encode, Option.some.injEq] at written
    subst written
    have read := List.utf8Decode?_utf8Encode (l := text)
    rw [List.utf8Encode] at read
    simp [decode, read]
  | latin1 =>
    simp only [encode, List.all_eq_true, decide_eq_true_eq] at written
    split at written
    · rename_i small
      cases written
      simp [decode, map_charOf_ofNat small]
    · cases written
  | ascii =>
    simp only [encode, List.all_eq_true, decide_eq_true_eq] at written
    split at written
    · rename_i small
      cases written
      have low : (text.map fun c => UInt8.ofNat c.toNat).all (· < 128) = true := by
        simp only [List.all_map, List.all_eq_true]
        intro c held
        have := small c held
        simp only [Function.comp, decide_eq_true_eq, UInt8.lt_iff_toNat_lt]
        simp
        omega
      have narrow : ∀ c ∈ text, c.toNat < 256 := fun c held =>
        Nat.lt_trans (small c held) (by decide)
      rw [decode, if_pos low, map_charOf_ofNat narrow]
    · cases written

def ofName? (name : Text) : Option Encoding :=
  if name = "utf-8".toList then some .utf8
  else if name = "latin-1".toList then some .latin1
  else if name = "ascii".toList then some .ascii
  else none

end Encoding

end Pkgsrc
