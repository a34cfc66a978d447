/-
# Pkgsrc.Proofs.Version.Circles -- where the order of versions goes round

`1a` is newer than `1` and `1.0` is newer than `1a`, yet `1.0` equals `1`.  Whenever two steps up
end at an equal version, the versions look like these three: the last goes on with zeros where the
first ends, and the one between them with fewer zeros and then a word (`circle_iff`).

There is no other way in which newer than newer fails to be newer (`newer_trans_iff`), or newer
than at least as new to be at least as new (`atLeast_trans_iff`).
-/
import Pkgsrc.Proofs.Version.Lexicographic

namespace Pkgsrc

set_option autoImplicit false

namespace Version

/-! ## Components -/

/-- The last list goes on with zeros where the first ends, and the one between them with fewer
zeros and then a word. -/
def Circle (low middle high : List Component) : Prop :=
  ∃ fewer more text rest, fewer < more ∧
    middle = low ++ (List.replicate fewer (.number 0) ++ .word text :: rest) ∧
    high = low ++ List.replicate more (.number 0)

/-- Between the end and some zeros is what has fewer zeros and then a word. -/
theorem between_zeros_iff {more : Nat} {middle : List Component} :
    endAgainst middle = .lt ∧
        compareComponents middle (List.replicate more (.number 0)) = .lt ↔
      ∃ fewer text rest, fewer < more ∧
        middle = List.replicate fewer (.number 0) ++ .word text :: rest := by
  induction more generalizing middle with
  | zero =>
      rw [List.replicate_zero, compareComponents_nil_right]
      constructor
      · rintro ⟨longer, shorter⟩
        rw [longer] at shorter
        cases shorter
      · rintro ⟨fewer, text, rest, less, -⟩
        cases less
  | succ more ih =>
      rw [List.replicate_succ]
      rcases middle with _ | ⟨n | text, middle⟩
      · simp [endAgainst]
      · rcases Nat.eq_zero_or_pos n with rfl | positive
        · -- one zero on both sides
          have below : endAgainst (.number 0 :: middle) = endAgainst middle := rfl
          have beside : compareComponents (.number 0 :: middle)
              (.number 0 :: List.replicate more (.number 0)) =
                compareComponents middle (List.replicate more (.number 0)) := rfl
          rw [below, beside, ih]
          constructor
          · rintro ⟨fewer, text, rest, less, rfl⟩
            exact ⟨fewer + 1, text, rest, Nat.succ_lt_succ less, rfl⟩
          · rintro ⟨_ | fewer, text, rest, less, shape⟩
            · cases shape
            · exact ⟨fewer, text, rest, Nat.lt_of_succ_lt_succ less, (List.cons.inj shape).2⟩
        · have above : compareComponents (.number n :: middle)
              (.number 0 :: List.replicate more (.number 0)) = .gt := by
            simp [compareComponents, Component.order, Nat.compare_eq_gt.2 positive]
          rw [above]
          constructor
          · rintro ⟨-, shorter⟩
            cases shorter
          · rintro ⟨_ | fewer, text, rest, -, shape⟩
            · cases shape
            · cases shape
              cases positive
      · constructor
        · intro _
          exact ⟨0, text, middle, Nat.succ_pos more, rfl⟩
        · intro _
          exact ⟨rfl, rfl⟩

theorem circle_nil_iff {middle high : List Component} :
    Circle [] middle high ↔
      endAgainst middle = .lt ∧ compareComponents middle high = .lt ∧ endAgainst high = .eq := by
  rw [endAgainst_eq_eq_iff, trimmed_eq_nil_iff]
  constructor
  · rintro ⟨fewer, more, text, rest, less, shape, rfl⟩
    obtain ⟨above, below⟩ := between_zeros_iff.2 ⟨fewer, text, rest, less, shape⟩
    exact ⟨above, below, fun c held => List.eq_of_mem_replicate held⟩
  · rintro ⟨above, below, zeros⟩
    have shape := List.eq_replicate_of_mem zeros
    rw [shape] at below
    obtain ⟨fewer, text, rest, less, middleShape⟩ := between_zeros_iff.1 ⟨above, below⟩
    exact ⟨fewer, high.length, text, rest, less, middleShape, shape⟩

theorem circle_cons_iff {c : Component} {low middle high : List Component} :
    Circle (c :: low) middle high ↔
      ∃ middle' high', middle = c :: middle' ∧ high = c :: high' ∧ Circle low middle' high' := by
  constructor
  · rintro ⟨fewer, more, text, rest, less, rfl, rfl⟩
    exact ⟨_, _, rfl, rfl, fewer, more, text, rest, less, rfl, rfl⟩
  · rintro ⟨middle', high', rfl, rfl, fewer, more, text, rest, less, rfl, rfl⟩
    exact ⟨fewer, more, text, rest, less, rfl, rfl⟩

/-- **Two steps up end at an equal list only in a circle.** -/
theorem circle_iff {low middle high : List Component} :
    Circle low middle high ↔
      compareComponents low middle = .lt ∧ compareComponents middle high = .lt ∧
        compareComponents low high = .eq := by
  induction low generalizing middle high with
  | nil =>
      rw [compareComponents_nil_left, compareComponents_nil_left]
      exact circle_nil_iff
  | cons c low ih =>
      rw [circle_cons_iff]
      constructor
      · rintro ⟨middle, high, rfl, rfl, circle⟩
        have same : c.order c = .eq := Component.order_eq_eq_iff.2 rfl
        simpa [compareComponents, same] using ih.1 circle
      · rintro ⟨up, further, equal⟩
        rcases middle with _ | ⟨m, middle⟩
        · -- against the end nothing is older
          rw [compareComponents_nil_right, Ordering.swap_eq_lt] at up
          rw [endAgainst_of_ne_eq (by simp [up])] at up
          cases up
        rcases high with _ | ⟨h, high⟩
        · rw [compareComponents_nil_right, Ordering.swap_eq_lt] at further
          rw [endAgainst_of_ne_eq (by simp [further])] at further
          cases further
        rw [compareComponents, Ordering.then_eq_eq, Component.order_eq_eq_iff] at equal
        obtain ⟨rfl, equal⟩ := equal
        rw [compareComponents, Ordering.then_eq_lt] at up further
        have same : m = c := by
          rcases up with up | ⟨same, -⟩
          · rcases further with further | ⟨same, -⟩
            · have back := Std.OrientedCmp.gt_of_lt up
              rw [further] at back
              cases back
            · exact Component.order_eq_eq_iff.1 same
          · exact (Component.order_eq_eq_iff.1 same).symm
        subst same
        have itself : m.order m = .eq := Component.order_eq_eq_iff.2 rfl
        simp only [itself, reduceCtorEq, false_or, true_and] at up further
        exact ⟨middle, high, rfl, rfl, ih.2 ⟨up, further, equal⟩⟩

/-! ## Versions -/

/-- The components of three versions make a circle. -/
def GoesRound (low middle high : Text) : Prop :=
  ∃ as bs cs, components low = .ok as ∧ components middle = .ok bs ∧ components high = .ok cs ∧
    Circle as bs cs

theorem goesRound_iff {low middle high : Text} :
    GoesRound low middle high ↔ Older low middle ∧ Older middle high ∧ Alike low high := by
  constructor
  · rintro ⟨as, bs, cs, left, between, right, circle⟩
    rw [Older, Older, Alike, order_of_components left between, order_of_components between right,
      order_of_components left right]
    obtain ⟨up, further, equal⟩ := circle_iff.1 circle
    rw [up, further, equal]
    exact ⟨rfl, rfl, rfl⟩
  · rintro ⟨up, further, equal⟩
    obtain ⟨as, bs, left, between, up⟩ := exists_components_of_order up
    obtain ⟨bs', cs, between', right, further⟩ := exists_components_of_order further
    obtain rfl : bs = bs' := Except.ok.inj (between.symm.trans between')
    rw [Alike, order_of_components left right] at equal
    exact ⟨as, bs, cs, left, between, right, circle_iff.2 ⟨up, further, Except.ok.inj equal⟩⟩

theorem within_of_order {a b : Text} {result : Ordering} (compared : order a b = .ok result) :
    Decimal.Within a ∧ Decimal.Within b := by
  obtain ⟨as, bs, left, right, -⟩ := exists_components_of_order compared
  exact ⟨components_isOk_iff.1 ⟨as, left⟩, components_isOk_iff.1 ⟨bs, right⟩⟩

/-- Three versions are not older one than the other all the way round. -/
theorem not_older_of_older_of_older {a b c : Text} (first : Older a b) (second : Older b c) :
    ¬ Older c a :=
  fun third => not_transGen_older a (.tail (.tail (.single first) second) third)

section Upgrade

variable {bound version upgrade : Text} {result : Ordering}

/-- A version that is newer than a newer one than the bound is newer than the bound, unless it
equals it again. -/
theorem newer_trans_iff (satisfied : Newer version bound) (newer : Newer upgrade version)
    (compared : order upgrade bound = .ok result) :
    result = .gt ↔ ¬ GoesRound bound version upgrade := by
  have up := newer_iff_older.1 satisfied
  have further := newer_iff_older.1 newer
  rw [goesRound_iff]
  cases result with
  | lt => exact absurd compared (not_older_of_older_of_older up further)
  | eq => simp [up, further, Alike.symm compared]
  | gt =>
      refine iff_of_true rfl ?_
      rintro ⟨-, -, equal⟩
      exact not_newer_of_alike equal.symm compared

/-- A version that is newer than one that is not older than the bound is not older than the bound,
unless the older of the two equals the bound and they go round. -/
theorem atLeast_trans_iff {before : Ordering} (known : order version bound = .ok before)
    (satisfied : before ≠ .lt) (newer : Newer upgrade version)
    (compared : order upgrade bound = .ok result) :
    result ≠ .lt ↔ ¬ GoesRound version upgrade bound := by
  have up := newer_iff_older.1 newer
  rw [ne_eq, not_iff_not, goesRound_iff]
  constructor
  · rintro rfl
    cases before with
    | lt => exact absurd rfl satisfied
    | eq => exact ⟨up, compared, known⟩
    | gt => exact absurd (newer_iff_older.1 known) (not_older_of_older_of_older up compared)
  · rintro ⟨-, further, -⟩
    exact Except.ok.inj (compared.symm.trans further)

end Upgrade

end Version

end Pkgsrc
