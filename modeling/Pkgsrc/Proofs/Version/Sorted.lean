/-
# Pkgsrc.Proofs.Version.Sorted -- lists of versions in order

The order of versions goes round, but not among all versions.  Where older than older is older,
not newer than not newer is not newer as well (`Rankable.not_newer_trans`), since equality is an
equivalence anyway.  On such a list the order is total and transitive, which is all that sorting
asks of the members of a list (`pairwise_mergeSort_of_mem`, `filter_mergeSort`).

* A sorted list holds the versions, in order, and equal ones as they were given
  (`Direction.Arranges`), whichever end the newest stand at.
* So the first of a list that starts with the newest is the first one given that no other is newer
  than (`exists_foremost_of_arranges`), and there is only one such version (`Foremost.unique`).
-/
import Pkgsrc.Proofs.Version.Lexicographic
import Pkgsrc.Version.Sorting

namespace Pkgsrc

set_option autoImplicit false

/-! ## Sorting with an order of the members -/

section MergeSort

variable {α : Type} {le : α → α → Bool} {items : List α}

theorem mergeSort_eq_map_attach (le : α → α → Bool) (items : List α) :
    items.mergeSort le = (items.attach.mergeSort fun a b => le a.1 b.1).map Subtype.val := by
  rw [List.map_mergeSort (s := le) fun a _ b _ => rfl, List.attach_map_subtype_val]

variable
  (trans : ∀ a ∈ items, ∀ b ∈ items, ∀ c ∈ items, le a b = true → le b c = true → le a c = true)
  (total : ∀ a ∈ items, ∀ b ∈ items, (le a b || le b a) = true)
include trans total

theorem pairwise_mergeSort_of_mem :
    (items.mergeSort le).Pairwise fun a b => le a b = true := by
  rw [mergeSort_eq_map_attach, List.pairwise_map]
  exact List.pairwise_mergeSort
    (fun a b c => trans a.1 a.2 b.1 b.2 c.1 c.2) (fun a b => total a.1 a.2 b.1 b.2) items.attach

theorem sublist_mergeSort_of_mem {some : List α} (ordered : some.Pairwise fun a b => le a b = true)
    (inside : some.Sublist items) : some.Sublist (items.mergeSort le) := by
  rw [← items.attach_map_subtype_val] at inside
  obtain ⟨members, insideMembers, rfl⟩ := List.sublist_map_iff.1 inside
  have orderedMembers : members.Pairwise fun a b => le a.1 b.1 = true := List.pairwise_map.1 ordered
  rw [mergeSort_eq_map_attach]
  exact (List.sublist_mergeSort (fun a b c => trans a.1 a.2 b.1 b.2 c.1 c.2)
    (fun a b => total a.1 a.2 b.1 b.2) orderedMembers insideMembers).map _

/-- Items that may stand in the given order keep it. -/
theorem filter_mergeSort {test : α → Bool}
    (ties : (items.filter test).Pairwise fun a b => le a b = true) :
    (items.mergeSort le).filter test = items.filter test := by
  have kept := (sublist_mergeSort_of_mem trans total ties List.filter_sublist).filter test
  rw [List.filter_filter] at kept
  have all := ((items.mergeSort_perm le).filter test).length_eq
  simp only [Bool.and_self] at kept
  exact (kept.eq_of_length all.symm).symm

end MergeSort

namespace Version

/-! ## Versions that can be ranked -/

/-- The versions can be compared, and older than older is older among them. -/
structure Rankable (versions : List Text) : Prop where
  within : ∀ version ∈ versions, Decimal.Within version
  transitive : ∀ a ∈ versions, ∀ b ∈ versions, ∀ c ∈ versions, Older a b → Older b c → Older a c

section Rankable

variable {versions : List Text} (rankable : Rankable versions) {a b c : Text} (inA : a ∈ versions)
  (inB : b ∈ versions) (inC : c ∈ versions)
include rankable inA inB inC

/-- Not newer than not newer is not newer.  An equal version on the way could be passed by a newer
one only if that were older than itself by way of the third. -/
theorem Rankable.not_newer_trans (first : ¬ Newer a b) (second : ¬ Newer b c) : ¬ Newer a c := by
  intro newer
  have back : Older c a := newer_iff_older.1 newer
  rcases older_or_alike_or_newer (rankable.within a inA) (rankable.within b inB) with
    up | same | down
  · exact second (newer_iff_older.2 (rankable.transitive c inC a inA b inB back up))
  · rcases older_or_alike_or_newer (rankable.within b inB) (rankable.within c inC) with
      up | same' | down
    · have round := rankable.transitive b inB c inC a inA up back
      exact not_newer_of_alike same (newer_iff_older.2 round)
    · exact not_newer_of_alike (same.trans same') newer
    · exact second down
  · exact first down

end Rankable

/-! ## Versions in order -/

/-- The first version may not stand before the second. -/
def Direction.Forbids : Direction → Text → Text → Prop
  | .oldestFirst, a, b => Newer a b
  | .newestFirst, a, b => Older a b

instance (direction : Direction) (a b : Text) : Decidable (direction.Forbids a b) :=
  match direction with
  | .oldestFirst => inferInstanceAs (Decidable (Newer a b))
  | .newestFirst => inferInstanceAs (Decidable (Older a b))

/-- The sorted list holds the versions, none of them where it may not stand, and equal ones in the
order in which they were given. -/
structure Direction.Arranges (direction : Direction) (versions sorted : List Text) : Prop where
  perm : sorted.Perm versions
  ordered : sorted.Pairwise fun a b => ¬ direction.Forbids a b
  stable : ∀ version,
    (sorted.filter fun other => Alike other version) =
      versions.filter fun other => Alike other version

theorem Direction.not_forbids_of_alike (direction : Direction) {a b : Text} (alike : Alike a b) :
    ¬ direction.Forbids a b := by
  cases direction with
  | oldestFirst => exact not_newer_of_alike alike
  | newestFirst => exact fun older => not_newer_of_alike alike.symm (newer_iff_older.2 older)

theorem Direction.allows_eq {direction : Direction} {a b : Text} {as bs : List Component}
    (left : components a = .ok as) (right : components b = .ok bs) :
    direction.allows as bs = !decide (direction.Forbids a b) := by
  have compared := order_of_components left right
  cases direction with
  | oldestFirst =>
      simp only [allows, Forbids, Newer, compared]
      cases compareComponents as bs <;> rfl
  | newestFirst =>
      simp only [allows, Forbids, Older, compared]
      cases compareComponents as bs <;> rfl

theorem keyed_eq_ok {versions : List Text} {pairs : List (Text × List Component)}
    (read : keyed versions = .ok pairs) :
    pairs.map (·.1) = versions ∧ ∀ pair ∈ pairs, components pair.1 = .ok pair.2 := by
  have each := mapM_eq_ok_iff.1 read
  clear read
  induction each with
  | nil => simp
  | @cons version pair versions pairs found others ih =>
      obtain ⟨cs, read, rfl⟩ := map_eq_ok_iff.1
        (show (components version).map (fun cs => (version, cs)) = .ok pair from found)
      exact ⟨by rw [List.map_cons, ih.1], List.forall_mem_cons.2 ⟨read, ih.2⟩⟩

/-- Versions within the limit are sorted by their order. -/
theorem sort_eq_mergeSort {versions : List Text}
    (within : ∀ version ∈ versions, Decimal.Within version) (direction : Direction) :
    sort direction versions =
      .ok (versions.mergeSort fun a b => !decide (direction.Forbids a b)) := by
  match versions with
  | [] => simp [sort]
  | [version] => simp [sort]
  | first :: second :: others =>
      have readable : ∃ pairs, keyed (first :: second :: others) = .ok pairs := by
        refine exists_mapM_eq_ok_iff.2 fun version inside => ?_
        obtain ⟨cs, read⟩ := components_isOk_iff.2 (within version inside)
        exact ⟨(version, cs), by rw [read]; rfl⟩
      obtain ⟨pairs, read⟩ := readable
      obtain ⟨names, keys⟩ := keyed_eq_ok read
      rw [sort, read, ← names]
      · refine congrArg Except.ok (List.map_mergeSort fun a inA b inB => ?_)
        exact Direction.allows_eq (keys a inA) (keys b inB)
      · exact List.cons_ne_nil _ _
      · intro version shape
        cases shape

theorem Rankable.arranges {versions : List Text} (rankable : Rankable versions)
    (direction : Direction) :
    direction.Arranges versions
      (versions.mergeSort fun a b => !decide (direction.Forbids a b)) := by
  have trans : ∀ a ∈ versions, ∀ b ∈ versions, ∀ c ∈ versions,
      (!decide (direction.Forbids a b)) = true → (!decide (direction.Forbids b c)) = true →
        (!decide (direction.Forbids a c)) = true := by
    intro a inA b inB c inC
    simp only [Bool.not_eq_true', decide_eq_false_iff_not]
    cases direction with
    | oldestFirst => exact rankable.not_newer_trans inA inB inC
    | newestFirst =>
        simp only [Direction.Forbids, ← newer_iff_older]
        exact fun first second => rankable.not_newer_trans inC inB inA second first
  have total : ∀ a ∈ versions, ∀ b ∈ versions,
      ((!decide (direction.Forbids a b)) || (!decide (direction.Forbids b a))) = true := by
    intro a _ b _
    simp only [Bool.or_eq_true, Bool.not_eq_true', decide_eq_false_iff_not]
    cases direction with
    | oldestFirst => exact not_newer_or_not_newer a b
    | newestFirst =>
        simp only [Direction.Forbids, ← newer_iff_older]
        exact not_newer_or_not_newer b a
  refine ⟨versions.mergeSort_perm _, ?_, ?_⟩
  · exact (pairwise_mergeSort_of_mem trans total).imp (by simp)
  · intro version
    refine filter_mergeSort trans total ?_
    refine List.pairwise_of_forall_mem_list fun a inA b inB => ?_
    have alikeA : Alike a version := by simpa using (List.mem_filter.1 inA).2
    have alikeB : Alike b version := by simpa using (List.mem_filter.1 inB).2
    simpa using direction.not_forbids_of_alike (alikeA.trans alikeB.symm)

/-! ## The newest version -/

/-- No version is newer than the newest one, which stands between those before and after it, and it
is the first of this kind. -/
structure Foremost (versions before : List Text) (newest : Text) (after : List Text) : Prop where
  place : versions = before ++ newest :: after
  unsurpassed : ∀ version ∈ versions, ¬ Newer version newest
  surpassed : ∀ version ∈ before, ∃ other ∈ versions, Newer other version

theorem Foremost.unique {versions before before' after after' : List Text} {newest newest' : Text}
    (one : Foremost versions before newest after)
    (other : Foremost versions before' newest' after') : newest = newest' := by
  have outside : newest ∉ before' := by
    intro held
    obtain ⟨version, inside, newer⟩ := other.surpassed newest held
    exact one.unsurpassed version inside newer
  have outside' : newest' ∉ before := by
    intro held
    obtain ⟨version, inside, newer⟩ := one.surpassed newest' held
    exact other.unsurpassed version inside newer
  rcases List.append_eq_append_iff.1 (one.place.symm.trans other.place) with
    ⟨between, shape, rest⟩ | ⟨between, shape, rest⟩
  · rcases between with _ | ⟨first, between⟩
    · exact (List.cons.inj rest).1
    · exact absurd (by simp [shape, (List.cons.inj rest).1]) outside
  · rcases between with _ | ⟨first, between⟩
    · exact (List.cons.inj rest).1.symm
    · exact absurd (by simp [shape, (List.cons.inj rest).1]) outside'

theorem exists_foremost_of_arranges {versions rest : List Text} {newest : Text}
    (within : ∀ version ∈ versions, Decimal.Within version)
    (arranges : Direction.newestFirst.Arranges versions (newest :: rest)) :
    ∃ before after, Foremost versions before newest after := by
  have inside : newest ∈ versions := arranges.perm.mem_iff.1 List.mem_cons_self
  have itself : Alike newest newest := alike_self (within newest inside)
  have unsurpassed : ∀ version ∈ versions, ¬ Newer version newest := by
    intro version held
    rcases List.mem_cons.1 (arranges.perm.mem_iff.2 held) with rfl | later
    · exact not_newer_of_alike itself
    · rw [newer_iff_older]
      exact (List.pairwise_cons.1 arranges.ordered).1 version later
  -- the newest version comes before its equals, so it does so in the list as it was given
  have ties := arranges.stable newest
  rw [List.filter_cons_of_pos (by simpa using itself)] at ties
  obtain ⟨before, after, place, differ, -, -⟩ := List.filter_eq_cons_iff.1 ties.symm
  refine ⟨before, after, place, unsurpassed, ?_⟩
  intro version held
  have given : version ∈ versions := by simp [place, held]
  refine ⟨newest, inside, newer_iff_older.2 ?_⟩
  rcases older_or_alike_or_newer (within version given) (within newest inside) with
    older | alike | newer
  · exact older
  · exact absurd (by simpa using alike) (differ version held)
  · exact absurd newer (unsurpassed version given)

theorem exists_mostRecent {versions : List Text} (rankable : Rankable versions)
    (nonempty : versions ≠ []) :
    ∃ before newest after, mostRecent? versions = .ok (some newest) ∧
      Foremost versions before newest after := by
  have arranges := rankable.arranges .newestFirst
  rw [mostRecent?, sort_eq_mergeSort rankable.within]
  generalize versions.mergeSort _ = sorted at arranges ⊢
  cases sorted with
  | nil => exact absurd arranges.perm.symm.eq_nil nonempty
  | cons newest rest =>
      obtain ⟨before, after, foremost⟩ := exists_foremost_of_arranges rankable.within arranges
      exact ⟨before, newest, after, rfl, foremost⟩

/-- **Versions that can be ranked are sorted stably in both directions, and the most recent one is
the first that no other is newer than.** -/
theorem sort_arranges_and_mostRecent_foremost {versions : List Text}
    (rankable : Rankable versions) :
    (∀ direction, ∃ sorted, sort direction versions = .ok sorted ∧
      direction.Arranges versions sorted) ∧
    (versions ≠ [] → ∃ before newest after, mostRecent? versions = .ok (some newest) ∧
      Foremost versions before newest after) := by
  refine ⟨?_, exists_mostRecent rankable⟩
  intro direction
  exact ⟨_, sort_eq_mergeSort rankable.within direction, rankable.arranges direction⟩

/-- Versions with equal ones among them that are spelled in different ways. -/
def variouslySpelled : List Text :=
  [['1', '.', '0'], ['2', '.', '0'], ['1'], ['2'], ['1', '.', '0', '0']]

theorem rankable_variouslySpelled : Rankable variouslySpelled where
  within := by
    intro version held
    apply Decimal.within_of_length_le
    revert version
    decide
  transitive := by decide

/-- The newest come first with `2.0` before `2`, as they were given, and so do the oldest with `1.0`
before `1` and `1.00`. -/
theorem sort_of_various_spellings :
    Rankable variouslySpelled ∧
      sort .oldestFirst variouslySpelled =
        .ok [['1', '.', '0'], ['1'], ['1', '.', '0', '0'], ['2', '.', '0'], ['2']] ∧
      sort .newestFirst variouslySpelled =
        .ok [['2', '.', '0'], ['2'], ['1', '.', '0'], ['1'], ['1', '.', '0', '0']] ∧
      (∀ direction, ∃ sorted, sort direction variouslySpelled = .ok sorted ∧
        direction.Arranges variouslySpelled sorted) ∧
      ∃ before newest after, mostRecent? variouslySpelled = .ok (some newest) ∧
        Foremost variouslySpelled before newest after := by
  have results := sort_arranges_and_mostRecent_foremost rankable_variouslySpelled
  refine ⟨rankable_variouslySpelled, ?_, ?_, results.1, results.2 (by decide)⟩
  all_goals
    rw [sort_eq_mergeSort rankable_variouslySpelled.within]
    simp +decide [variouslySpelled, List.mergeSort]

end Version

end Pkgsrc
