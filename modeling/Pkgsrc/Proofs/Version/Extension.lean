/-
# Pkgsrc.Proofs.Version.Extension -- a version with more behind it is no older

What is written behind a version either goes on with its last run or starts new ones, so the runs
of the longer version are those of the shorter one up to its last, which may have grown
(`extends_runs`).

* A number that has grown is no smaller and a word no older (`isLE_order_of_longer`).
* New components are compared with the end of the shorter version, which nothing is older than.
* A dot at the end of the shorter version counts as a word, and may be a mere separator in the
  longer one.  What stands in its place there is a number, which is newer than any word.
-/
import Pkgsrc.Proofs.Version.Lexicographic
import Pkgsrc.Proofs.Version.Runs

namespace Pkgsrc

set_option autoImplicit false

namespace Version

namespace Run

/-! ## Runs that go on -/

/-- The second runs start with the first ones, of which the last may have grown. -/
inductive Extends : List Run → List Run → Prop where
  | nil {bs : List Run} : Extends [] bs
  | last {run longer : Run} {rest : List Run} (alike : run.isDigits = longer.isDigits)
      (start : run.text <+: longer.text) : Extends [run] (longer :: rest)
  | cons {run : Run} {as bs : List Run} (more : as ≠ []) (behind : Extends as bs) :
      Extends (run :: as) (run :: bs)

theorem Extends.ne_nil {as bs : List Run} (longer : Extends as bs) (more : as ≠ []) : bs ≠ [] := by
  cases longer with
  | nil => exact absurd rfl more
  | last => exact List.cons_ne_nil _ _
  | cons => exact List.cons_ne_nil _ _

theorem extends_push (c : Char) {as bs : List Run} (longer : Extends as bs) :
    Extends (push c as) (push c bs) := by
  cases longer with
  | nil =>
      obtain ⟨text, rest, shape⟩ := exists_push c bs
      rw [shape, push_of_unlike (by simp)]
      exact .last (by simp) (by simp)
  | @last run longer rest alike start =>
      rw [push_cons, push_cons, ← alike]
      split
      · exact .last (by simp) (by simpa using start)
      · exact .cons (List.cons_ne_nil _ _) (.last alike start)
  | @cons run as bs more behind =>
      rw [push_cons, push_cons]
      split
      · exact .cons more behind
      · exact .cons (List.cons_ne_nil _ _) (.cons more behind)

end Run

theorem extends_runs (version more : Text) :
    Run.Extends (runs version) (runs (version ++ more)) := by
  induction version with
  | nil => exact .nil
  | cons c rest ih => exact Run.extends_push c ih

/-! ## Components that have grown -/

theorem isLE_compare_append (text more : Text) : (compare text (text ++ more)).isLE = true := by
  cases more with
  | nil =>
      have same : compare text text = .eq := Std.ReflCmp.compare_self
      rw [List.append_nil, same]
      rfl
  | cons c more =>
      rw [Text.compare_append_cons]
      rfl

theorem isLE_order_of_longer {run longer : Run} (alike : run.isDigits = longer.isDigits)
    (start : run.text <+: longer.text) {c d : Component} (read : run.component = .ok c)
    (read' : longer.component = .ok d) : (c.order d).isLE = true := by
  obtain ⟨more, grown⟩ := start
  cases run with
  | digits digits =>
      cases longer with
      | other text => cases alike
      | digits digits' =>
          obtain rfl : digits ++ more = digits' := grown
          obtain ⟨m, number, rfl⟩ := map_eq_ok_iff.1 read
          obtain ⟨n, number', rfl⟩ := map_eq_ok_iff.1 read'
          obtain ⟨-, rfl⟩ := Decimal.read_eq_ok_iff.1 number
          obtain ⟨-, rfl⟩ := Decimal.read_eq_ok_iff.1 number'
          exact Nat.isLE_compare.2 (Decimal.value_le_append digits more)
  | other text =>
      cases longer with
      | digits digits => cases alike
      | other text' =>
          obtain rfl : text ++ more = text' := grown
          cases read
          cases read'
          exact isLE_compare_append text more

/-- A word is older than a number. -/
theorem order_eq_lt_of_kinds {run next : Run} (noDigits : run.isDigits = false)
    (digits : next.isDigits = true) {c d : Component} (read : run.component = .ok c)
    (read' : next.component = .ok d) : c.order d = .lt := by
  cases run with
  | digits text => cases noDigits
  | other text =>
      cases next with
      | other text' => cases digits
      | digits text' =>
          obtain ⟨n, -, rfl⟩ := map_eq_ok_iff.1 read'
          cases read
          rfl

theorem isLE_compareComponents_nil (cs : List Component) :
    (compareComponents [] cs).isLE = true := by
  rw [compareComponents_nil_left]
  by_cases same : endAgainst cs = .eq
  · rw [same]
    rfl
  · rw [endAgainst_of_ne_eq same]
    rfl

/-- Only the first components matter if nothing is behind the one of the shorter version. -/
theorem isLE_compareComponents_last {c d : Component} (ds : List Component)
    (first : (c.order d).isLE = true) : (compareComponents [c] (d :: ds)).isLE = true := by
  rw [compareComponents, Ordering.isLE_then_iff_and]
  exact ⟨first, Or.inr (isLE_compareComponents_nil ds)⟩

theorem isLE_compareComponents_cons (c : Component) {cs ds : List Component}
    (behind : (compareComponents cs ds).isLE = true) :
    (compareComponents (c :: cs) (c :: ds)).isLE = true := by
  rw [compareComponents, Component.order_eq_eq_iff.2 rfl]
  exact behind

/-! ## Versions that have grown -/

section Extends

variable {as bs : List Run} {cs ds : List Component}

/-- Behind the first run a dot may count in the shorter version only. -/
theorem isLE_of_extends_inner (longer : Run.Extends as bs) (maximal : Run.Maximal bs)
    (read : (significantInner as).mapM Run.component = .ok cs)
    (read' : (significantInner bs).mapM Run.component = .ok ds) :
    (compareComponents cs ds).isLE = true := by
  induction longer generalizing cs ds with
  | nil =>
      cases read
      exact isLE_compareComponents_nil ds
  | @last run longer rest alike start =>
      obtain ⟨c, none, first, atEnd, rfl⟩ := mapM_cons_eq_ok_iff.1 read
      cases atEnd
      by_cases dropped : longer = .other ['.'] ∧ rest ≠ []
      · obtain ⟨rfl, more⟩ := dropped
        obtain ⟨next, others, rfl⟩ := List.exists_cons_of_ne_nil more
        obtain ⟨-, apart, -⟩ := maximal
        have digits : next.isDigits = true := by simpa [Run.isDigits] using apart next rfl
        have counts : next ≠ .other ['.'] := by
          rintro rfl
          cases digits
        rw [significantInner_dot_cons more, significantInner_cons fun dot => absurd dot counts,
          mapM_cons_eq_ok_iff] at read'
        obtain ⟨d, later, second, -, rfl⟩ := read'
        -- the word that ended the shorter version meets the number behind the separator
        have older : c.order d = .lt := order_eq_lt_of_kinds alike digits first second
        exact isLE_compareComponents_last later (by rw [older]; rfl)
      · have counts : longer = .other ['.'] → rest = [] := by simpa using dropped
        rw [significantInner_cons counts, mapM_cons_eq_ok_iff] at read'
        obtain ⟨d, later, second, -, rfl⟩ := read'
        exact isLE_compareComponents_last later (isLE_order_of_longer alike start first second)
  | @cons run as bs more behind ih =>
      by_cases dot : run = .other ['.']
      · subst dot
        rw [significantInner_dot_cons more] at read
        rw [significantInner_dot_cons (behind.ne_nil more)] at read'
        exact ih maximal.2.2 read read'
      · rw [significantInner_cons fun same => absurd same dot, mapM_cons_eq_ok_iff] at read read'
        obtain ⟨c, later, first, next, rfl⟩ := read
        obtain ⟨c', later', first', next', rfl⟩ := read'
        obtain rfl : c = c' := Except.ok.inj (first.symm.trans first')
        exact isLE_compareComponents_cons c (ih maximal.2.2 next next')

theorem isLE_of_extends (longer : Run.Extends as bs) (maximal : Run.Maximal bs)
    (read : (significant as).mapM Run.component = .ok cs)
    (read' : (significant bs).mapM Run.component = .ok ds) :
    (compareComponents cs ds).isLE = true := by
  cases longer with
  | nil =>
      cases read
      exact isLE_compareComponents_nil ds
  | @last run longer rest alike start =>
      obtain ⟨c, none, first, atEnd, rfl⟩ := mapM_cons_eq_ok_iff.1 read
      obtain ⟨d, later, second, -, rfl⟩ := mapM_cons_eq_ok_iff.1 read'
      cases atEnd
      exact isLE_compareComponents_last later (isLE_order_of_longer alike start first second)
  | @cons run as bs more behind =>
      obtain ⟨c, later, first, next, rfl⟩ := mapM_cons_eq_ok_iff.1 read
      obtain ⟨c', later', first', next', rfl⟩ := mapM_cons_eq_ok_iff.1 read'
      obtain rfl : c = c' := Except.ok.inj (first.symm.trans first')
      exact isLE_compareComponents_cons c (isLE_of_extends_inner behind maximal.2.2 next next')

end Extends

/-- **A version is older than it is with more behind it, or equal to that.** -/
theorem older_or_alike_append {version more : Text} (within : Decimal.Within (version ++ more)) :
    Older version (version ++ more) ∨ Alike version (version ++ more) := by
  obtain ⟨cs, read⟩ := components_isOk_iff.2 (within.of_infix (List.infix_append' [] version more))
  obtain ⟨ds, read'⟩ := components_isOk_iff.2 within
  have compared := isLE_of_extends (extends_runs version more) (maximal_runs _) read read'
  rw [Older, Alike, order_of_components read read', Except.ok.injEq, Except.ok.injEq]
  exact Ordering.isLE_iff_eq_lt_or_eq_eq.1 compared

/-- `1.`, whose dot is a component of its own, and `1.0`, in which it only separates. -/
theorem older_or_alike_behind_dot :
    Decimal.Within (['1', '.'] ++ ['0']) ∧
      components ['1', '.'] = .ok [.number 1, .word ['.']] ∧
      components (['1', '.'] ++ ['0']) = .ok [.number 1, .number 0] ∧
      (Older ['1', '.'] (['1', '.'] ++ ['0']) ∨ Alike ['1', '.'] (['1', '.'] ++ ['0'])) := by
  have within : Decimal.Within (['1', '.'] ++ ['0']) := Decimal.within_of_length_le (by decide)
  exact ⟨within, rfl, rfl, older_or_alike_append within⟩

end Version

end Pkgsrc
