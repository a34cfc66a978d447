import Pkgsrc.Text

/-!
# Pkgsrc.Text.Decimal -- numbers written in decimal digits

Numbers have no size limit, but their spelling has: a run of more than `digitLimit` digits, leading
zeros counted, is refused rather than converted (`read_eq_error_iff`).
-/

namespace Pkgsrc

set_option autoImplicit false

inductive NumberFault where
  | tooManyDigits
  deriving DecidableEq, Repr

namespace Decimal

def digitLimit : Nat := 4300

def value (digits : Text) : Nat :=
  Nat.ofDigitChars 10 digits 0

def read (digits : Text) : Except NumberFault Nat :=
  if digits.length ≤ digitLimit then .ok (value digits) else .error .tooManyDigits

def write (number : Nat) : Text :=
  Nat.toDigits 10 number

theorem le_ofDigitChars (digits : Text) (start : Nat) :
    start ≤ Nat.ofDigitChars 10 digits start := by
  induction digits generalizing start with
  | nil => simp [Nat.ofDigitChars_nil]
  | cons c rest ih =>
    rw [Nat.ofDigitChars_cons]
    exact Nat.le_trans (by omega) (ih _)

theorem value_le_append (digits more : Text) : value digits ≤ value (digits ++ more) := by
  rw [value, value, Nat.ofDigitChars_append]
  exact le_ofDigitChars more _

theorem value_write (number : Nat) : value (write number) = number :=
  Nat.ofDigitChars_toDigits (by decide) (by decide)

theorem read_eq_ok_iff {digits : Text} {number : Nat} :
    read digits = .ok number ↔ digits.length ≤ digitLimit ∧ value digits = number := by
  unfold read
  split <;> simp [*]

theorem read_eq_error_iff {digits : Text} :
    read digits = .error .tooManyDigits ↔ digitLimit < digits.length := by
  unfold read
  split <;> simp <;> omega

theorem read_write {number : Nat} (short : (write number).length ≤ digitLimit) :
    read (write number) = .ok number := by
  simp [read, short, value_write]

end Decimal

end Pkgsrc
