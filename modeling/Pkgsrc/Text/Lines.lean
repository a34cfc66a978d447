import Pkgsrc.Text

/-!
# Pkgsrc.Text.Lines -- the lines of a text that say something

Line boundaries and white space are those of Unicode.  Lines of which nothing is left are dropped,
so the empty line that a carriage return and a line feed enclose is never seen.
-/

namespace Pkgsrc

set_option autoImplicit false

namespace Text

def isLineBoundary (c : Char) : Bool :=
  let code := c.toNat
  (0x0A ≤ code && code ≤ 0x0D) || (0x1C ≤ code && code ≤ 0x1E) || code == 0x85
    || code == 0x2028 || code == 0x2029

def isSpace (c : Char) : Bool :=
  let code := c.toNat
  (0x09 ≤ code && code ≤ 0x0D) || (0x1C ≤ code && code ≤ 0x20) || code == 0x85 || code == 0xA0
    || code == 0x1680 || (0x2000 ≤ code && code ≤ 0x200A) || code == 0x2028 || code == 0x2029
    || code == 0x202F || code == 0x205F || code == 0x3000

def strip (text : Text) : Text :=
  ((text.dropWhile isSpace).reverse.dropWhile isSpace).reverse

def entries (text : Text) : List Text :=
  ((fieldsBy isLineBoundary text).map strip).filter (· ≠ [])

theorem entries_append_cons {boundary : Char} (ends : isLineBoundary boundary = true)
    (before after : Text) :
    entries (before ++ boundary :: after) = entries before ++ entries after := by
  simp [entries, fieldsBy_append_cons ends]

theorem isSpace_of_isLineBoundary {c : Char} (ends : isLineBoundary c = true) :
    isSpace c = true := by
  simp only [isLineBoundary, isSpace, Bool.or_eq_true, Bool.and_eq_true, decide_eq_true_eq,
    beq_iff_eq] at ends ⊢
  omega

end Text

end Pkgsrc
