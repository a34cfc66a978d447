/-
# Pkgsrc.Proofs.Pattern.Cutting -- where a text is cut

Operators overlap: `<` begins `<=`, and `a===1` holds `==` at two places.  `Cuts.read` takes the
first operator that it comes to, the longer one where two begin at one place, and goes on behind
it.  `Cuts.Divides` says the same without a scan.  No operator starts in front of a cut, not even
one that reaches into it (`Operator.Clear`), and the operator at a cut is not the beginning of a
longer one (`Operator.Complete`).  A text is divided so in one way only, which is the way that it
is read (`read_eq_iff_divides`).

Only `==` can be reached into from in front of it, for an operator of two characters ends in `=`
(`clear_iff_of_head?_ne`).
-/
import Pkgsrc.Pattern.Cuts
import Mathlib.Data.List.Infix

namespace Pkgsrc

set_option autoImplicit false

namespace Operator

/-! ## Operators in a text -/

/-- An operator stands at the beginning of the text. -/
def Starts (text : Text) : Prop :=
  ∃ operator : Operator, operator.text <+: text

/-- An operator stands somewhere in the text. -/
def OccursIn (text : Text) : Prop :=
  ∃ operator : Operator, operator.text <:+: text

/-- No operator starts inside `base`, not even one that reaches into what follows. -/
def Clear (base after : Text) : Prop :=
  ∀ position < base.length, ¬ Starts ((base ++ after).drop position)

/-- The operator and what follows it do not begin with a longer operator. -/
def Complete (operator : Operator) (after : Text) : Prop :=
  operator = .lt ∨ operator = .gt → after.head? ≠ some '='

theorem exists_iff_listed {holds : Operator → Prop} :
    (∃ operator, holds operator) ↔ ∃ operator ∈ [lt, le, gt, ge, eq, ne], holds operator := by
  constructor
  · rintro ⟨operator, held⟩
    exact ⟨operator, by cases operator <;> decide, held⟩
  · rintro ⟨operator, -, held⟩
    exact ⟨operator, held⟩

instance (text : Text) : Decidable (Starts text) :=
  decidable_of_iff _ exists_iff_listed.symm

instance (text : Text) : Decidable (OccursIn text) :=
  decidable_of_iff _ exists_iff_listed.symm

instance (base after : Text) : Decidable (Clear base after) :=
  inferInstanceAs (Decidable (∀ position < base.length, _))

instance (operator : Operator) (after : Text) : Decidable (operator.Complete after) :=
  inferInstanceAs (Decidable (_ → _))

/-- Only `<` and `>` can be continued. -/
theorem complete_of_ne {operator : Operator} (notLt : operator ≠ .lt) (notGt : operator ≠ .gt)
    (after : Text) : operator.Complete after := by
  rintro (same | same)
  · exact absurd same notLt
  · exact absurd same notGt

theorem text_ne_nil (operator : Operator) : operator.text ≠ [] := by
  cases operator <;> decide

theorem Starts.append {text : Text} (start : Starts text) (after : Text) :
    Starts (text ++ after) := by
  obtain ⟨operator, held⟩ := start
  exact ⟨operator, held.trans (List.prefix_append text after)⟩

theorem head?_text_append_of_isUpper {operator : Operator} (isUpper : operator.isUpper = true)
    (after : Text) : (operator.text ++ after).head? = some '<' := by
  cases operator with
  | lt => rfl
  | le => rfl
  | gt => cases isUpper
  | ge => cases isUpper
  | eq => cases isUpper
  | ne => cases isUpper

/-- Behind its first character an operator holds `=` only. -/
theorem eq_of_mem_tail_text {operator : Operator} {c : Char} (held : c ∈ operator.text.tail) :
    c = '=' := by
  cases operator <;> simp [text] at held <;> exact held

/-- An operator reaches from one text into another only for an `=`. -/
theorem starts_append_iff {text after : Text} (more : text ≠ []) (next : after.head? ≠ some '=') :
    Starts (text ++ after) ↔ Starts text := by
  refine ⟨?_, fun start => start.append after⟩
  rintro ⟨operator, rest, shape⟩
  rcases List.append_eq_append_iff.1 shape with ⟨left, inside, -⟩ | ⟨left, reaches, behind⟩
  · exact ⟨operator, left, inside.symm⟩
  · cases left with
    | nil => exact ⟨operator, [], by simpa using reaches⟩
    | cons c left =>
        -- `c` is the second character of the operator and the first of `after`
        obtain ⟨first, others, rfl⟩ := List.exists_cons_of_ne_nil more
        have held : c ∈ operator.text.tail := by simp [reaches]
        exact absurd (by simp [behind, eq_of_mem_tail_text held]) next

theorem clear_nil (after : Text) : Clear [] after := by
  rintro position ⟨⟩

theorem clear_cons_iff {c : Char} {base after : Text} :
    Clear (c :: base) after ↔ ¬ Starts (c :: (base ++ after)) ∧ Clear base after := by
  constructor
  · intro clear
    exact ⟨clear 0 (Nat.zero_lt_succ _), fun position inside =>
      clear (position + 1) (Nat.succ_lt_succ inside)⟩
  · rintro ⟨first, others⟩ position inside
    cases position with
    | zero => exact first
    | succ position => exact others position (Nat.lt_of_succ_lt_succ inside)

/-- Where the base is not followed by an `=`, a clear base is one without operators. -/
theorem clear_iff_of_head?_ne {base after : Text} (next : after.head? ≠ some '=') :
    Clear base after ↔ ¬ OccursIn base := by
  constructor
  · rintro clear ⟨operator, before, behind, rfl⟩
    refine clear before.length ?_ ⟨operator, behind ++ after, ?_⟩
    · have := List.length_pos_of_ne_nil operator.text_ne_nil
      simp only [List.length_append]
      omega
    · simp
  · intro absent position inside start
    have more : base.drop position ≠ [] := by simpa using inside
    rw [List.drop_append_of_le_length (Nat.le_of_lt inside), starts_append_iff more next] at start
    obtain ⟨operator, held⟩ := start
    exact absent ⟨operator, held.isInfix.trans (List.drop_suffix position base).isInfix⟩

end Operator

namespace Cuts

open Operator

/-! ## Cuts without a scan -/

/-- The text is divided into the base and the bounds: nothing in front of a cut starts an
operator, and each cut takes the whole operator. -/
inductive Divides : Cuts → Text → Prop
  | uncut {base : Text} : Clear base [] → Divides ⟨base, []⟩ base
  | cut {base version after : Text} {operator : Operator} {bounds : List (Operator × Text)} :
      Clear base (operator.text ++ after) → operator.Complete after →
        Divides ⟨version, bounds⟩ after →
          Divides ⟨base, (operator, version) :: bounds⟩ (base ++ (operator.text ++ after))

theorem read_cons_of_not_starts {c : Char} {rest : Text} (clear : ¬ Starts (c :: rest)) :
    read (c :: rest) = (read rest).push c := by
  have starts (operator : Operator) {after : Text} (shape : operator.text ++ after = c :: rest) :
      False := clear ⟨operator, after, shape⟩
  generalize whole : c :: rest = text
  fun_cases read text with
  | case1 => cases whole
  | case2 after => exact (starts .ge whole.symm).elim
  | case3 after => exact (starts .le whole.symm).elim
  | case4 after => exact (starts .eq whole.symm).elim
  | case5 after => exact (starts .ne whole.symm).elim
  | case6 after => exact (starts .gt whole.symm).elim
  | case7 after => exact (starts .lt whole.symm).elim
  | case8 => cases whole; rfl

theorem read_text_append {operator : Operator} {after : Text} (complete : operator.Complete after) :
    read (operator.text ++ after) = (read after).mark operator := by
  have next (single : operator = .lt ∨ operator = .gt) (others : Text)
      (shape : after = '=' :: others) : False := complete single (by rw [shape, List.head?_cons])
  cases operator with
  | lt => exact read.eq_7 after (next (Or.inl rfl))
  | le => rfl
  | gt => exact read.eq_6 after (next (Or.inr rfl))
  | ge => rfl
  | eq => rfl
  | ne => rfl

theorem read_append_of_clear {base after : Text} (clear : Clear base after) :
    read (base ++ after) = ⟨base ++ (read after).base, (read after).bounds⟩ := by
  induction base with
  | nil => rfl
  | cons c base ih =>
      obtain ⟨first, others⟩ := clear_cons_iff.1 clear
      rw [List.cons_append, read_cons_of_not_starts first, ih others]
      rfl

theorem read_of_divides {cuts : Cuts} {text : Text} (divides : cuts.Divides text) :
    read text = cuts := by
  induction divides with
  | @uncut base clear =>
      have whole := read_append_of_clear clear
      simpa [read] using whole
  | cut clear complete _ ih =>
      rw [read_append_of_clear clear, read_text_append complete, ih]
      simp [mark]

theorem divides_mark {cuts : Cuts} {after : Text} (operator : Operator)
    (complete : operator.Complete after) (divides : cuts.Divides after) :
    (cuts.mark operator).Divides (operator.text ++ after) :=
  .cut (clear_nil _) complete divides

theorem divides_push {cuts : Cuts} {c : Char} {rest : Text} (first : ¬ Starts (c :: rest))
    (divides : cuts.Divides rest) : (cuts.push c).Divides (c :: rest) := by
  cases divides with
  | uncut clear => exact .uncut (clear_cons_iff.2 ⟨by simpa using first, clear⟩)
  | cut clear complete others => exact .cut (clear_cons_iff.2 ⟨first, clear⟩) complete others

theorem divides_read (text : Text) : (read text).Divides text := by
  have alone {rest : Text} (notLonger : ∀ after, rest = '=' :: after → False) :
      rest.head? ≠ some '=' := by
    intro next
    obtain ⟨after, shape⟩ := List.head?_eq_some_iff.1 next
    exact notLonger after shape
  induction text using read.induct with
  | case1 => exact .uncut (clear_nil _)
  | case2 rest ih => exact divides_mark .ge (complete_of_ne (by decide) (by decide) rest) ih
  | case3 rest ih => exact divides_mark .le (complete_of_ne (by decide) (by decide) rest) ih
  | case4 rest ih => exact divides_mark .eq (complete_of_ne (by decide) (by decide) rest) ih
  | case5 rest ih => exact divides_mark .ne (complete_of_ne (by decide) (by decide) rest) ih
  | case6 rest notLonger ih =>
      rw [read.eq_6 rest notLonger]
      exact divides_mark .gt (fun _ => alone notLonger) ih
  | case7 rest notLonger ih =>
      rw [read.eq_7 rest notLonger]
      exact divides_mark .lt (fun _ => alone notLonger) ih
  | case8 c rest noGe noLe noEq noNe noGt noLt ih =>
      have first : ¬ Starts (c :: rest) := by
        rintro ⟨operator, after, shape⟩
        cases operator with
        | lt => cases shape; exact noLt rfl
        | le => cases shape; exact noLe after rfl rfl
        | gt => cases shape; exact noGt rfl
        | ge => cases shape; exact noGe after rfl rfl
        | eq => cases shape; exact noEq after rfl rfl
        | ne => cases shape; exact noNe after rfl rfl
      rw [read_cons_of_not_starts first]
      exact divides_push first ih

/-- **A text is read as it is divided.** -/
theorem read_eq_iff_divides {cuts : Cuts} {text : Text} : read text = cuts ↔ cuts.Divides text := by
  constructor
  · rintro rfl
    exact divides_read text
  · exact read_of_divides

/-! ## Few cuts -/

theorem divides_nil_iff {base text : Text} :
    Divides ⟨base, []⟩ text ↔ text = base ∧ ¬ OccursIn base := by
  rw [← clear_iff_of_head?_ne (by simp : ([] : Text).head? ≠ some '=')]
  constructor
  · rintro ⟨clear⟩
    exact ⟨rfl, clear⟩
  · rintro ⟨rfl, clear⟩
    exact .uncut clear

theorem divides_cons_iff {base version text : Text} {operator : Operator}
    {bounds : List (Operator × Text)} :
    Divides ⟨base, (operator, version) :: bounds⟩ text ↔
      ∃ after, text = base ++ (operator.text ++ after) ∧ Clear base (operator.text ++ after) ∧
        operator.Complete after ∧ Divides ⟨version, bounds⟩ after := by
  constructor
  · rintro (_ | ⟨clear, complete, others⟩)
    exact ⟨_, rfl, clear, complete, others⟩
  · rintro ⟨after, rfl, clear, complete, others⟩
    exact .cut clear complete others

/-- A text without operators is not cut. -/
theorem bounds_read_eq_nil_iff {text : Text} : (read text).bounds = [] ↔ ¬ OccursIn text := by
  constructor
  · intro uncut
    have shape : read text = ⟨(read text).base, []⟩ := by rw [← uncut]
    obtain ⟨whole, free⟩ := divides_nil_iff.1 (read_eq_iff_divides.1 shape)
    rwa [whole]
  · intro free
    rw [read_of_divides (divides_nil_iff.2 ⟨rfl, free⟩)]

/-- A text is cut once. -/
theorem read_eq_single_iff {base version text : Text} {operator : Operator} :
    read text = ⟨base, [(operator, version)]⟩ ↔
      text = base ++ (operator.text ++ version) ∧ Clear base (operator.text ++ version) ∧
        operator.Complete version ∧ ¬ OccursIn version := by
  rw [read_eq_iff_divides, divides_cons_iff]
  simp only [divides_nil_iff]
  constructor
  · rintro ⟨after, written, clear, complete, rfl, free⟩
    exact ⟨written, clear, complete, free⟩
  · rintro ⟨written, clear, complete, free⟩
    exact ⟨version, written, clear, complete, rfl, free⟩

/-- A text is cut twice, the second time at an upper bound, into which nothing reaches. -/
theorem read_eq_pair_iff {base least most text : Text} {lower upper : Operator}
    (isUpper : upper.isUpper = true) (versioned : least ≠ []) :
    read text = ⟨base, [(lower, least), (upper, most)]⟩ ↔
      text = base ++ (lower.text ++ (least ++ (upper.text ++ most))) ∧
        Clear base (lower.text ++ (least ++ (upper.text ++ most))) ∧
        (lower.Complete least ∧ ¬ OccursIn least) ∧ upper.Complete most ∧ ¬ OccursIn most := by
  -- an upper bound starts with `<`, so the first version is clear when it holds no operator
  have next : (upper.text ++ most).head? ≠ some '=' := by
    rw [head?_text_append_of_isUpper isUpper]
    decide
  have complete_iff : lower.Complete (least ++ (upper.text ++ most)) ↔ lower.Complete least := by
    obtain ⟨c, least, rfl⟩ := List.exists_cons_of_ne_nil versioned
    rfl
  rw [read_eq_iff_divides, divides_cons_iff]
  simp only [divides_cons_iff, divides_nil_iff]
  constructor
  · rintro ⟨_, written, clear, complete, _, rfl, free, completeUpper, rfl, freeUpper⟩
    exact ⟨written, clear, ⟨complete_iff.1 complete, (clear_iff_of_head?_ne next).1 free⟩,
      completeUpper, freeUpper⟩
  · rintro ⟨written, clear, ⟨complete, free⟩, completeUpper, freeUpper⟩
    exact ⟨_, written, clear, complete_iff.2 complete, most, rfl, (clear_iff_of_head?_ne next).2 free,
      completeUpper, rfl, freeUpper⟩

end Cuts

end Pkgsrc
