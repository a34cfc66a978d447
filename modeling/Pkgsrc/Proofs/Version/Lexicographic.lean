/-
# Pkgsrc.Proofs.Version.Lexicographic -- the order of versions, told without padding

Where one version ends, a missing number counts as zero and a missing word as the oldest of all.
So the order of two versions is not transitive; but it is nearly the lexicographic order of
their components, in which the end comes before every word and a word before every number
(`lexicographic`, a linear order; `Component.Before` tells which component comes first).

* Two versions are equal exactly when their components are, up to zeros at the end
  (`compareComponents_eq_eq_iff`).
* Otherwise they stand as in the lexicographic order, zeros at the end included
  (`compareComponents_of_ne_eq`).

Hence versions that are older and older never come back to where they started
(`not_transGen_older`), and among versions that do not end in zero the order is linear.
-/
import Pkgsrc.Proofs.Version.Limit
import Mathlib.Data.List.DropRight
import Mathlib.Data.List.Lex
import Mathlib.Logic.Relation

namespace Pkgsrc

set_option autoImplicit false

/-! ## Components in order -/

/-- The first place where two lists differ decides which comes first; one that ends there does. -/
theorem compareLex_eq_lt_iff {α : Type} {cmp : α → α → Ordering} [Std.LawfulEqCmp cmp]
    {xs ys : List α} :
    xs.compareLex cmp ys = .lt ↔ List.Lex (fun x y => cmp x y = .lt) xs ys := by
  induction xs generalizing ys with
  | nil => cases ys <;> simp [List.compareLex]
  | cons x xs ih =>
      cases ys with
      | nil => simp [List.compareLex]
      | cons y ys =>
          rw [List.compareLex_cons_cons, Ordering.then_eq_lt, List.cons_lex_cons_iff, ih,
            Std.LawfulEqCmp.compare_eq_iff_eq]

theorem Text.compare_eq_lt_iff {s t : Text} :
    compare s t = .lt ↔ List.Lex (fun c d => c.toNat < d.toNat) s t := by
  have codePoints (c d : Char) : compare c d = .lt ↔ c.toNat < d.toNat := by
    show compareOfLessAndEq c d = .lt ↔ _
    exact compareOfLessAndEq_eq_lt
  rw [List.compare_eq_compareLex, compareLex_eq_lt_iff]
  simp only [codePoints]

/-- A text comes before every longer one that starts with it. -/
theorem Text.compare_append_cons (text : Text) (c : Char) (more : Text) :
    compare text (text ++ c :: more) = .lt := by
  rw [Text.compare_eq_lt_iff]
  have ends : List.Lex (fun c d : Char => c.toNat < d.toNat) [] (c :: more) := .nil
  simpa using List.Lex.append_left _ ends text

/-- Which of two components comes first: the smaller number, the word with the smaller code point
where the two first differ, and any word in front of any number. -/
inductive Component.Before : Component → Component → Prop where
  | number {m n : Nat} (less : m < n) : Before (.number m) (.number n)
  | word {s t : Text} (less : List.Lex (fun c d => c.toNat < d.toNat) s t) :
      Before (.word s) (.word t)
  | wordNumber (text : Text) (n : Nat) : Before (.word text) (.number n)

theorem Component.order_eq_lt_iff {a b : Component} : a.order b = .lt ↔ a.Before b := by
  constructor
  · intro less
    cases a with
    | number m =>
        cases b with
        | number n => exact .number (Nat.compare_eq_lt.1 less)
        | word t => cases less
    | word s =>
        cases b with
        | number n => exact .wordNumber s n
        | word t => exact .word (Text.compare_eq_lt_iff.1 less)
  · intro before
    cases before with
    | number less => exact Nat.compare_eq_lt.2 less
    | word less => exact Text.compare_eq_lt_iff.2 less
    | wordNumber text n => rfl

theorem Component.order_eq_eq_iff {a b : Component} : a.order b = .eq ↔ a = b := by
  cases a <;> cases b <;> simp [Component.order]

instance : Std.LawfulEqCmp Component.order where
  compare_self := Component.order_eq_eq_iff.2 rfl
  eq_of_compare := Component.order_eq_eq_iff.1

instance : Std.TransCmp Component.order where
  eq_swap {a b} := (Version.swap_componentOrder b a).symm
  isLE_trans {a b c} := by
    cases a <;> cases b <;> cases c <;> simp only [Component.order, Ordering.isLE_gt,
      Ordering.isLE_lt, reduceCtorEq, false_implies, implies_true]
    · exact Std.TransCmp.isLE_trans
    · exact Std.TransCmp.isLE_trans

namespace Version

/-- Component by component: the end before every word, a word before every number. -/
def lexicographic (as bs : List Component) : Ordering :=
  as.compareLex Component.order bs

instance : Std.LawfulEqCmp lexicographic :=
  inferInstanceAs (Std.LawfulEqCmp (List.compareLex Component.order))

instance : Std.TransCmp lexicographic :=
  inferInstanceAs (Std.TransCmp (List.compareLex Component.order))

theorem lexicographic_eq_lt_iff {as bs : List Component} :
    lexicographic as bs = .lt ↔ List.Lex Component.Before as bs := by
  rw [lexicographic, compareLex_eq_lt_iff]
  simp only [Component.order_eq_lt_iff]

/-- The components without the zeros at their end. -/
def trimmed (components : List Component) : List Component :=
  components.rdropWhile (· == .number 0)

/-! ## Zeros at the end -/

theorem trimmed_eq_nil_iff {cs : List Component} : trimmed cs = [] ↔ ∀ c ∈ cs, c = .number 0 := by
  simp [trimmed, List.rdropWhile_eq_nil_iff]

theorem trimmed_cons (c : Component) (cs : List Component) :
    trimmed (c :: cs) = if c = .number 0 ∧ trimmed cs = [] then [] else c :: trimmed cs := by
  unfold trimmed List.rdropWhile
  rw [List.reverse_cons, List.dropWhile_append]
  by_cases zeros : cs.reverse.dropWhile (· == Component.number 0) = []
  · by_cases zero : c = .number 0 <;> simp [zeros, zero]
  · simp [zeros]

theorem trimmed_cons_eq_iff {a b : Component} {as bs : List Component} :
    trimmed (a :: as) = trimmed (b :: bs) ↔ a = b ∧ trimmed as = trimmed bs := by
  rw [trimmed_cons, trimmed_cons]
  by_cases zeros : a = .number 0 ∧ trimmed as = [] <;>
    by_cases zeros' : b = .number 0 ∧ trimmed bs = []
  · simp [zeros, zeros']
  · rw [if_pos zeros, if_neg zeros']
    refine iff_of_false (by simp) ?_
    rintro ⟨rfl, same⟩
    exact zeros' ⟨zeros.1, same ▸ zeros.2⟩
  · rw [if_neg zeros, if_pos zeros']
    refine iff_of_false (by simp) ?_
    rintro ⟨rfl, same⟩
    exact zeros ⟨zeros'.1, same ▸ zeros'.2⟩
  · rw [if_neg zeros, if_neg zeros', List.cons.injEq]

/-- A list that does not end in zero is all that counts of it. -/
theorem trimmed_of_getLast?_ne {cs : List Component} (settled : cs.getLast? ≠ some (.number 0)) :
    trimmed cs = cs := by
  refine List.rdropWhile_eq_self_iff.2 fun nonempty zero => settled ?_
  rw [List.getLast?_eq_some_getLast nonempty]
  simpa using zero

/-! ## The order of two lists -/

@[simp] theorem compareComponents_nil_left (bs : List Component) :
    compareComponents [] bs = endAgainst bs := by
  rw [compareComponents]

@[simp] theorem compareComponents_nil_right (as : List Component) :
    compareComponents as [] = (endAgainst as).swap := by
  cases as with
  | nil => rfl
  | cons a as => simp [compareComponents]

theorem endAgainst_eq_eq_iff {bs : List Component} : endAgainst bs = .eq ↔ trimmed bs = [] := by
  rw [trimmed_eq_nil_iff]
  induction bs with
  | nil => simp [endAgainst]
  | cons b bs ih =>
      cases b with
      | word text => simp [endAgainst]
      | number n =>
          rw [List.forall_mem_cons, ← ih, endAgainst, Ordering.then_eq_eq, Nat.compare_eq_eq]
          simp [eq_comm]

/-- Against the end of a version nothing is older. -/
theorem endAgainst_of_ne_eq {bs : List Component} (differ : endAgainst bs ≠ .eq) :
    endAgainst bs = .lt := by
  induction bs with
  | nil => exact absurd rfl differ
  | cons b bs ih =>
      cases b with
      | word text => rfl
      | number n =>
          rcases Nat.eq_zero_or_pos n with rfl | positive
          · exact ih differ
          · simp [endAgainst, Nat.compare_eq_lt.2 positive]

/-- Lists of components are equal exactly when they agree up to zeros at the end. -/
theorem compareComponents_eq_eq_iff {as bs : List Component} :
    compareComponents as bs = .eq ↔ trimmed as = trimmed bs := by
  induction as generalizing bs with
  | nil => rw [compareComponents_nil_left, endAgainst_eq_eq_iff, eq_comm]; rfl
  | cons a as ih =>
      cases bs with
      | nil =>
          rw [compareComponents_nil_right, Ordering.swap_eq_eq, endAgainst_eq_eq_iff]
          rfl
      | cons b bs =>
          rw [compareComponents, Ordering.then_eq_eq, Component.order_eq_eq_iff, ih,
            trimmed_cons_eq_iff]

/-- Lists of components that are not equal stand in lexicographic order. -/
theorem compareComponents_of_ne_eq {as bs : List Component}
    (differ : compareComponents as bs ≠ .eq) :
    compareComponents as bs = lexicographic as bs := by
  induction as generalizing bs with
  | nil =>
      rw [compareComponents_nil_left] at differ ⊢
      rw [endAgainst_of_ne_eq differ]
      cases bs with
      | nil => exact absurd rfl differ
      | cons b bs => rfl
  | cons a as ih =>
      cases bs with
      | nil =>
          rw [compareComponents_nil_right, ne_eq, Ordering.swap_eq_eq] at differ
          rw [compareComponents_nil_right, endAgainst_of_ne_eq differ]
          rfl
      | cons b bs =>
          rw [compareComponents] at differ ⊢
          rw [lexicographic, List.compareLex_cons_cons]
          cases first : a.order b with
          | lt => rfl
          | gt => rfl
          | eq =>
              rw [first] at differ
              exact ih differ

/-- Lists that start alike stand as what is left of them. -/
theorem compareComponents_append_left (shared as bs : List Component) :
    compareComponents (shared ++ as) (shared ++ bs) = compareComponents as bs := by
  induction shared with
  | nil => rfl
  | cons c shared ih =>
      rw [List.cons_append, List.cons_append, compareComponents, Component.order_eq_eq_iff.2 rfl]
      exact ih

/-! ## The order of two versions -/

/-- The first version is older than the second. -/
def Older (a b : Text) : Prop :=
  order a b = .ok .lt

/-- The versions are equal, although they need not be spelled alike. -/
def Alike (a b : Text) : Prop :=
  order a b = .ok .eq

/-- The first version is newer than the second. -/
def Newer (a b : Text) : Prop :=
  order a b = .ok .gt

instance (a b : Text) : Decidable (Older a b) := inferInstanceAs (Decidable (order a b = .ok .lt))

instance (a b : Text) : Decidable (Alike a b) := inferInstanceAs (Decidable (order a b = .ok .eq))

instance (a b : Text) : Decidable (Newer a b) := inferInstanceAs (Decidable (order a b = .ok .gt))

theorem order_of_components {a b : Text} {as bs : List Component}
    (left : components a = .ok as) (right : components b = .ok bs) :
    order a b = .ok (compareComponents as bs) := by
  rw [order, left, right]
  rfl

theorem exists_components_of_order {a b : Text} {result : Ordering}
    (compared : order a b = .ok result) :
    ∃ as bs, components a = .ok as ∧ components b = .ok bs ∧
      compareComponents as bs = result := by
  unfold order at compared
  cases left : components a with
  | error fault => rw [left] at compared; cases compared
  | ok as =>
      cases right : components b with
      | error fault => rw [left, right] at compared; cases compared
      | ok bs =>
          rw [left, right] at compared
          cases compared
          exact ⟨as, bs, rfl, rfl, rfl⟩

/-- A version beyond the digit limit cannot be compared. -/
theorem order_eq_error {a b : Text} (beyond : ¬ Decimal.Within a ∨ ¬ Decimal.Within b) :
    order a b = .error .tooManyDigits := by
  unfold order
  cases left : components a with
  | error fault => cases fault; rfl
  | ok as =>
      rcases beyond with beyond | beyond
      · exact absurd (components_isOk_iff.1 ⟨as, left⟩) beyond
      · rw [components_eq_error_iff.2 beyond]
        rfl

/-- To ask the other way round is to get the opposite answer. -/
theorem order_swap (a b : Text) : order b a = (order a b).map Ordering.swap := by
  unfold order
  cases components a with
  | error fault => cases fault; cases components b with
      | error fault => cases fault; rfl
      | ok bs => rfl
  | ok as =>
      cases components b with
      | error fault => rfl
      | ok bs => exact congrArg Except.ok (swap_compareComponents as bs).symm

theorem newer_iff_older {a b : Text} : Newer a b ↔ Older b a := by
  rw [Newer, Older, order_swap b a]
  cases order b a with
  | error fault => simp [Except.map]
  | ok result => cases result <;> simp [Except.map, Ordering.swap]

theorem not_newer_of_alike {a b : Text} (alike : Alike a b) : ¬ Newer a b := by
  rw [Newer, show order a b = .ok .eq from alike]
  simp

theorem not_newer_of_older {a b : Text} (older : Older a b) : ¬ Newer a b := by
  rw [Newer, show order a b = .ok .lt from older]
  simp

theorem not_newer_or_not_newer (a b : Text) : ¬ Newer a b ∨ ¬ Newer b a := by
  by_cases newer : Newer b a
  · exact Or.inl (not_newer_of_older (newer_iff_older.1 newer))
  · exact Or.inr newer

theorem exists_order_of_within {a b : Text} (left : Decimal.Within a) (right : Decimal.Within b) :
    ∃ result, order a b = .ok result := by
  obtain ⟨as, read⟩ := components_isOk_iff.2 left
  obtain ⟨bs, read'⟩ := components_isOk_iff.2 right
  exact ⟨_, order_of_components read read'⟩

/-- Versions within the limit are older, equal or newer. -/
theorem older_or_alike_or_newer {a b : Text} (left : Decimal.Within a) (right : Decimal.Within b) :
    Older a b ∨ Alike a b ∨ Newer a b := by
  obtain ⟨result, compared⟩ := exists_order_of_within left right
  cases result with
  | lt => exact Or.inl compared
  | eq => exact Or.inr (Or.inl compared)
  | gt => exact Or.inr (Or.inr compared)

theorem alike_iff {a b : Text} {as bs : List Component} (left : components a = .ok as)
    (right : components b = .ok bs) : Alike a b ↔ trimmed as = trimmed bs := by
  rw [Alike, order_of_components left right, Except.ok.injEq, compareComponents_eq_eq_iff]

/-- A version is older when it comes first and differs in more than zeros at the end. -/
theorem older_iff {a b : Text} {as bs : List Component} (left : components a = .ok as)
    (right : components b = .ok bs) :
    Older a b ↔ trimmed as ≠ trimmed bs ∧ List.Lex Component.Before as bs := by
  rw [Older, order_of_components left right, Except.ok.injEq, ← lexicographic_eq_lt_iff, ne_eq,
    ← compareComponents_eq_eq_iff]
  constructor
  · intro older
    have differ : compareComponents as bs ≠ .eq := by simp [older]
    exact ⟨differ, compareComponents_of_ne_eq differ ▸ older⟩
  · rintro ⟨differ, before⟩
    rw [compareComponents_of_ne_eq differ, before]

theorem alike_self {version : Text} (within : Decimal.Within version) : Alike version version := by
  obtain ⟨cs, read⟩ := components_isOk_iff.2 within
  exact (alike_iff read read).2 rfl

theorem Alike.symm {a b : Text} (alike : Alike a b) : Alike b a := by
  rw [Alike, order_swap, show order a b = .ok .eq from alike]
  rfl

theorem Alike.trans {a b c : Text} (first : Alike a b) (second : Alike b c) : Alike a c := by
  obtain ⟨as, bs, left, middle, same⟩ := exists_components_of_order first
  obtain ⟨bs', cs, middle', right, same'⟩ := exists_components_of_order second
  obtain rfl : bs = bs' := Except.ok.inj (middle.symm.trans middle')
  rw [compareComponents_eq_eq_iff] at same same'
  exact (alike_iff left right).2 (same.trans same')

/-- An older version comes before in lexicographic order. -/
theorem Older.lexicographic_eq_lt {a b : Text} (older : Older a b) :
    ∃ as bs, components a = .ok as ∧ components b = .ok bs ∧ lexicographic as bs = .lt := by
  obtain ⟨as, bs, left, right, -⟩ := exists_components_of_order older
  obtain ⟨-, before⟩ := (older_iff left right).1 older
  exact ⟨as, bs, left, right, lexicographic_eq_lt_iff.2 before⟩

/-- Older and older versions stay before the first in lexicographic order. -/
theorem lexicographic_of_transGen {a b : Text} (path : Relation.TransGen Older a b) :
    ∃ as bs, components a = .ok as ∧ components b = .ok bs ∧ lexicographic as bs = .lt := by
  induction path with
  | single older => exact older.lexicographic_eq_lt
  | tail path older ih =>
      obtain ⟨as, bs, left, middle, before⟩ := ih
      obtain ⟨bs', cs, middle', right, next⟩ := older.lexicographic_eq_lt
      obtain rfl : bs = bs' := Except.ok.inj (middle.symm.trans middle')
      exact ⟨as, cs, left, right, Std.TransCmp.lt_trans before next⟩

/-- **No version is older than itself, over any number of steps.** -/
theorem not_transGen_older (a : Text) : ¬ Relation.TransGen Older a a := by
  intro path
  obtain ⟨as, as', left, right, before⟩ := lexicographic_of_transGen path
  obtain rfl : as = as' := Except.ok.inj (left.symm.trans right)
  have itself : lexicographic as as = .eq := Std.ReflCmp.compare_self
  rw [itself] at before
  cases before

/-- Where no zero stands at the end, the order is the lexicographic one. -/
theorem order_of_settled {a b : Text} {as bs : List Component} (left : components a = .ok as)
    (right : components b = .ok bs) (settled : as.getLast? ≠ some (.number 0))
    (settled' : bs.getLast? ≠ some (.number 0)) : order a b = .ok (lexicographic as bs) := by
  rw [order_of_components left right, Except.ok.injEq]
  by_cases same : compareComponents as bs = .eq
  · have agree := compareComponents_eq_eq_iff.1 same
    rw [trimmed_of_getLast?_ne settled, trimmed_of_getLast?_ne settled'] at agree
    rw [same, agree]
    exact Std.ReflCmp.compare_self.symm
  · exact compareComponents_of_ne_eq same

/-- **What the order of versions is.**

* Within the digit limit two versions are equal exactly when their components are, up to zeros
  at the end; otherwise they stand as in the lexicographic order.  The other way round the
  answer is the opposite one.
* To be equal is an equivalence.
* Versions that are older and older never come back to the first.
* Where no zero stands at the end, the order is linear on lists of components.
* A version beyond the digit limit cannot be compared, on either side. -/
theorem order_eq_lexicographic_up_to_zeros :
    (∀ a b, Decimal.Within a → Decimal.Within b →
      ∃ as bs result, components a = .ok as ∧ components b = .ok bs ∧
        order a b = .ok result ∧ order b a = .ok result.swap ∧
        (result = .eq ↔ trimmed as = trimmed bs) ∧
        (result ≠ .eq → result = lexicographic as bs)) ∧
    Equivalence (fun a b : {version : Text // Decimal.Within version} => Alike a.1 b.1) ∧
    (∀ a, ¬ Relation.TransGen Older a a) ∧
    (∀ a b c as bs cs, components a = .ok as → components b = .ok bs → components c = .ok cs →
      as.getLast? ≠ some (.number 0) → bs.getLast? ≠ some (.number 0) →
      cs.getLast? ≠ some (.number 0) →
        (Alike a b ↔ as = bs) ∧ (Older a b ∨ Alike a b ∨ Older b a) ∧
        (Older a b → Older b c → Older a c)) ∧
    (∀ a b, ¬ Decimal.Within a ∨ ¬ Decimal.Within b →
      order a b = .error .tooManyDigits ∧ order b a = .error .tooManyDigits) := by
  refine ⟨?_, ⟨?_, Alike.symm, Alike.trans⟩, not_transGen_older, ?_, ?_⟩
  · intro a b within within'
    obtain ⟨as, left⟩ := components_isOk_iff.2 within
    obtain ⟨bs, right⟩ := components_isOk_iff.2 within'
    refine ⟨as, bs, compareComponents as bs, left, right, order_of_components left right, ?_,
      compareComponents_eq_eq_iff, compareComponents_of_ne_eq⟩
    rw [swap_compareComponents]
    exact order_of_components right left
  · rintro ⟨a, within⟩
    obtain ⟨as, left⟩ := components_isOk_iff.2 within
    exact (alike_iff left left).2 rfl
  · intro a b c as bs cs left middle right settled settled' settled''
    unfold Older Alike
    rw [order_of_settled left middle settled settled', order_of_settled middle left settled' settled,
      order_of_settled middle right settled' settled'',
      order_of_settled left right settled settled'']
    simp only [Except.ok.injEq]
    refine ⟨Std.LawfulEqCmp.compare_eq_iff_eq, ?_, Std.TransCmp.lt_trans⟩
    cases result : lexicographic as bs with
    | lt => exact Or.inl rfl
    | eq => exact Or.inr (Or.inl rfl)
    | gt => exact Or.inr (Or.inr (Std.OrientedCmp.lt_of_gt result))
  · intro a b beyond
    exact ⟨order_eq_error beyond, order_eq_error beyond.symm⟩

/-- `1` is older than `1.0a`, whose word comes late; `1a` is older than `1b` and `1b` than `2`, and
none of them ends in zero; `1.0` is newer than `1a`, which `1` is not; and a number is too long. -/
theorem order_of_late_words_and_long_numbers :
    (Decimal.Within ['1'] ∧ Decimal.Within ['1', '.', '0', 'a'] ∧
      (∃ as bs result, components ['1'] = .ok as ∧ components ['1', '.', '0', 'a'] = .ok bs ∧
        order ['1'] ['1', '.', '0', 'a'] = .ok result ∧
        order ['1', '.', '0', 'a'] ['1'] = .ok result.swap ∧
        (result = .eq ↔ trimmed as = trimmed bs) ∧
        (result ≠ .eq → result = lexicographic as bs)) ∧
      order ['1'] ['1', '.', '0', 'a'] = .ok .lt) ∧
    (components ['1', 'a'] = .ok [.number 1, .word ['a']] ∧
      components ['1', 'b'] = .ok [.number 1, .word ['b']] ∧
      components ['2'] = .ok [.number 2] ∧
      (Alike ['1', 'a'] ['1', 'b'] ↔
        [Component.number 1, .word ['a']] = [.number 1, .word ['b']]) ∧
      (Older ['1', 'a'] ['1', 'b'] ∨ Alike ['1', 'a'] ['1', 'b'] ∨ Older ['1', 'b'] ['1', 'a']) ∧
      Older ['1', 'a'] ['1', 'b'] ∧ Older ['1', 'b'] ['2'] ∧ Older ['1', 'a'] ['2']) ∧
    (Alike ['1'] ['1', '.', '0'] ∧ Older ['1'] ['1', 'a'] ∧ Newer ['1', '.', '0'] ['1', 'a']) ∧
    (¬ Decimal.Within (List.replicate 4301 '1') ∧
      order (List.replicate 4301 '1') ['1'] = .error .tooManyDigits ∧
      order ['1'] (List.replicate 4301 '1') = .error .tooManyDigits) := by
  have short : ∀ {text : Text}, text.length ≤ 4300 → Decimal.Within text :=
    Decimal.within_of_length_le
  have long : ¬ Decimal.Within (List.replicate 4301 '1') :=
    Decimal.not_within_replicate rfl (by decide)
  have ends : Older ['1'] ['1', '.', '0', 'a'] :=
    (older_iff rfl rfl).2 ⟨by decide, .cons .nil⟩
  have words : Older ['1', 'a'] ['1', 'b'] :=
    (older_iff rfl rfl).2 ⟨by decide, .cons (.rel (.word (.rel (by decide))))⟩
  have numbers : Older ['1', 'b'] ['2'] :=
    (older_iff rfl rfl).2 ⟨by decide, .rel (.number (by decide))⟩
  have kinds : Older ['1', 'a'] ['1', '.', '0'] :=
    (older_iff rfl rfl).2 ⟨by decide, .cons (.rel (.wordNumber _ _))⟩
  obtain ⟨alike, some, transitive⟩ := order_eq_lexicographic_up_to_zeros.2.2.2.1
    ['1', 'a'] ['1', 'b'] ['2'] _ _ _ rfl rfl rfl (by decide) (by decide) (by decide)
  exact ⟨⟨short (by decide), short (by decide),
      order_eq_lexicographic_up_to_zeros.1 _ _ (short (by decide)) (short (by decide)), ends⟩,
    ⟨rfl, rfl, rfl, alike, some, words, numbers, transitive words numbers⟩,
    ⟨(alike_iff rfl rfl).2 (by decide), (older_iff rfl rfl).2 ⟨by decide, .cons .nil⟩,
      newer_iff_older.2 kinds⟩,
    ⟨long, order_eq_lexicographic_up_to_zeros.2.2.2.2 _ _ (Or.inl long)⟩⟩

end Version

end Pkgsrc
