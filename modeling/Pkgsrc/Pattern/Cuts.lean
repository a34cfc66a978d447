import Pkgsrc.Operator

/-!
# Pkgsrc.Pattern.Cuts -- a pattern cut at its comparisons

Operators are found from left to right, the longest first: `foo>=1.0<2` is the base `foo`, `>=` with
`1.0` and `<` with `2`.
-/

namespace Pkgsrc

set_option autoImplicit false

structure Cuts where
  base : Text
  bounds : List (Operator × Text)
  deriving DecidableEq, Repr

namespace Cuts

def push (c : Char) (cuts : Cuts) : Cuts :=
  ⟨c :: cuts.base, cuts.bounds⟩

/-- What was the base is now what follows the operator. -/
def mark (operator : Operator) (cuts : Cuts) : Cuts :=
  ⟨[], (operator, cuts.base) :: cuts.bounds⟩

def read : Text → Cuts
  | [] => ⟨[], []⟩
  | '>' :: '=' :: rest => (read rest).mark .ge
  | '<' :: '=' :: rest => (read rest).mark .le
  | '=' :: '=' :: rest => (read rest).mark .eq
  | '!' :: '=' :: rest => (read rest).mark .ne
  | '>' :: rest => (read rest).mark .gt
  | '<' :: rest => (read rest).mark .lt
  | c :: rest => (read rest).push c

def text (cuts : Cuts) : Text :=
  cuts.base ++ (cuts.bounds.map fun bound => bound.1.text ++ bound.2).flatten

theorem text_push (c : Char) (cuts : Cuts) : (cuts.push c).text = c :: cuts.text := rfl

theorem text_mark (operator : Operator) (cuts : Cuts) :
    (cuts.mark operator).text = operator.text ++ cuts.text := by
  simp [mark, text]

theorem text_read (written : Text) : (read written).text = written := by
  induction written using read.induct with
  | case1 => rfl
  | case2 rest ih => simp [read, text_mark, ih, Operator.text]
  | case3 rest ih => simp [read, text_mark, ih, Operator.text]
  | case4 rest ih => simp [read, text_mark, ih, Operator.text]
  | case5 rest ih => simp [read, text_mark, ih, Operator.text]
  | case6 rest alone ih => simp [read, text_mark, ih, Operator.text]
  | case7 rest alone ih => simp [read, text_mark, ih, Operator.text]
  | case8 c rest _ _ _ _ _ _ ih => simp [read, text_push, ih]

end Cuts

end Pkgsrc
