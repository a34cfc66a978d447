/-
# Pkgsrc.Proofs.Results -- lists of results that may fail

Results are asked for one after the other, and the first fault ends it.  So a list of results
is there when every one of them is (`mapM_eq_ok_iff`), a fault is the one of the first item that
has none (`mapM_eq_error_iff`), and asking group by group is asking for all (`mapM_flatMap`).
Where there is a state as well, a fault keeps the state that it meets (`run_bind`).
-/
import Mathlib.Data.List.Forall2

namespace Pkgsrc

set_option autoImplicit false

variable {ε α β γ : Type}

/-! ## One result -/

theorem map_eq_ok_iff {f : α → β} {result : Except ε α} {value : β} :
    result.map f = .ok value ↔ ∃ part, result = .ok part ∧ f part = value := by
  cases result <;> simp [Except.map]

theorem map_eq_error_iff {f : α → β} {result : Except ε α} {fault : ε} :
    result.map f = .error fault ↔ result = .error fault := by
  cases result <;> simp [Except.map]

theorem exists_map_eq_ok_iff {f : α → β} {result : Except ε α} :
    (∃ value, result.map f = .ok value) ↔ ∃ part, result = .ok part := by
  cases result <;> simp [Except.map]

/-- Two changes of a result, one after the other, are one. -/
theorem map_map_of_eq {f : α → β} {g : β → γ} {h : α → γ} (same : ∀ part, g (f part) = h part)
    (result : Except ε α) : (result.map f).map g = result.map h := by
  cases result <;> simp [Except.map, same]

/-- Of two steps the first one fails, or the second with the value of the first. -/
theorem bind_eq_error_iff {first : Except ε α} {next : α → Except ε β} {fault : ε} :
    first >>= next = .error fault ↔
      first = .error fault ∨ ∃ value, first = .ok value ∧ next value = .error fault := by
  cases first <;> simp [bind, Except.bind]

theorem map_mapError {δ : Type} (f : α → β) (g : ε → δ) (result : Except ε α) :
    (result.map f).mapError g = (result.mapError g).map f := by
  cases result <;> rfl

/-! ## Results with a state -/

/-- What follows is done only where there is a result, with the state that it leaves. -/
theorem run_bind {σ : Type} (first : ExceptT ε (StateM σ) α) (next : α → ExceptT ε (StateM σ) β)
    (state : σ) :
    (first >>= next).run state =
      match first.run state with
      | (.ok value, later) => (next value).run later
      | (.error fault, later) => (.error fault, later) := by
  change (ExceptT.bindCont next (first.run state).1) (first.run state).2 = _
  rcases first.run state with ⟨fault | value, later⟩
  · rfl
  · rfl

/-! ## Lists of results -/

/-- One item after the other. -/
theorem mapM_cons_eq (f : α → Except ε β) (item : α) (items : List α) :
    (item :: items).mapM f =
      match f item with
      | .error fault => .error fault
      | .ok result => (items.mapM f).map (result :: ·) := by
  rw [List.mapM_cons]
  cases f item with
  | error fault => rfl
  | ok result => cases items.mapM f <;> rfl

/-- The first item and the others have their results. -/
theorem mapM_cons_eq_ok_iff {f : α → Except ε β} {item : α} {items : List α} {results : List β} :
    (item :: items).mapM f = .ok results ↔
      ∃ first others, f item = .ok first ∧ items.mapM f = .ok others ∧ first :: others = results := by
  rw [mapM_cons_eq]
  cases f item with
  | error fault => simp
  | ok first => simp [map_eq_ok_iff]

/-- A list of results holds the result of each item, in order. -/
theorem mapM_eq_ok_iff {f : α → Except ε β} {items : List α} {results : List β} :
    items.mapM f = .ok results ↔
      List.Forall₂ (fun item result => f item = .ok result) items results := by
  induction items generalizing results with
  | nil =>
      constructor
      · intro done
        cases done
        exact .nil
      · rintro ⟨⟩
        rfl
  | cons item items ih =>
      rw [mapM_cons_eq_ok_iff]
      constructor
      · rintro ⟨first, others, found, done, rfl⟩
        exact .cons found (ih.1 done)
      · rintro (_ | ⟨found, others⟩)
        exact ⟨_, _, found, ih.2 others, rfl⟩

/-- Every result is the result of an item. -/
theorem exists_item_of_mapM_eq_ok {f : α → Except ε β} {items : List α} {results : List β}
    (done : items.mapM f = .ok results) {result : β} (held : result ∈ results) :
    ∃ item ∈ items, f item = .ok result := by
  have each := mapM_eq_ok_iff.1 done
  clear done
  induction each with
  | nil => cases held
  | @cons item first items results found others ih =>
      rcases List.mem_cons.1 held with rfl | later
      · exact ⟨item, List.mem_cons_self, found⟩
      · obtain ⟨other, inside, otherFound⟩ := ih later
        exact ⟨other, List.mem_cons_of_mem item inside, otherFound⟩

/-- A faultless list of results: every one of them is there. -/
theorem exists_mapM_eq_ok_iff {f : α → Except ε β} {items : List α} :
    (∃ results, items.mapM f = .ok results) ↔ ∀ item ∈ items, ∃ result, f item = .ok result := by
  induction items with
  | nil => simp [pure, Except.pure]
  | cons item items ih =>
      rw [List.forall_mem_cons, ← ih, mapM_cons_eq]
      cases f item with
      | error fault => simp
      | ok result => simp [exists_map_eq_ok_iff]

/-- A fault is the one of the first item that has no result. -/
theorem mapM_eq_error_iff {f : α → Except ε β} {items : List α} {fault : ε} :
    items.mapM f = .error fault ↔
      ∃ earlier item later, items = earlier ++ item :: later ∧
        (∀ before ∈ earlier, ∃ result, f before = .ok result) ∧ f item = .error fault := by
  induction items with
  | nil =>
      constructor
      · intro failed
        cases failed
      · rintro ⟨earlier, item, later, shape, -, -⟩
        simp at shape
  | cons item items ih =>
      rw [mapM_cons_eq]
      constructor
      · intro failed
        cases found : f item with
        | error first =>
            simp only [found, Except.error.injEq] at failed
            exact ⟨[], item, items, rfl, by simp, failed ▸ found⟩
        | ok result =>
            rw [found] at failed
            have others : items.mapM f = .error fault := map_eq_error_iff.1 failed
            obtain ⟨earlier, next, later, rfl, fine, fails⟩ := ih.1 others
            exact ⟨item :: earlier, next, later, rfl,
              List.forall_mem_cons.2 ⟨⟨result, found⟩, fine⟩, fails⟩
      · rintro ⟨earlier, next, later, shape, fine, fails⟩
        cases earlier with
        | nil =>
            obtain ⟨rfl, rfl⟩ := List.cons.inj shape
            rw [fails]
        | cons first earlier =>
            obtain ⟨rfl, rfl⟩ := List.cons.inj shape
            obtain ⟨⟨result, found⟩, fine⟩ := List.forall_mem_cons.1 fine
            have others := ih.2 ⟨earlier, next, later, rfl, fine, fails⟩
            rw [found]
            exact map_eq_error_iff.2 others

/-- Only what is asked for the items matters. -/
theorem mapM_congr {f g : α → Except ε β} {items : List α}
    (same : ∀ item ∈ items, f item = g item) : items.mapM f = items.mapM g := by
  induction items with
  | nil => rfl
  | cons item items ih =>
      obtain ⟨first, others⟩ := List.forall_mem_cons.1 same
      rw [mapM_cons_eq, mapM_cons_eq, first, ih others]

/-- The results may be changed one by one or together. -/
theorem mapM_map_result (f : α → Except ε β) (g : β → γ) (items : List α) :
    (items.mapM fun item => (f item).map g) = (items.mapM f).map (List.map g) := by
  induction items with
  | nil => rfl
  | cons item items ih =>
      rw [mapM_cons_eq, mapM_cons_eq, ih]
      cases f item with
      | error fault => rfl
      | ok result => cases items.mapM f <;> rfl

/-- The faults may be changed one by one or together. -/
theorem mapM_mapError {δ : Type} (f : α → Except ε β) (g : ε → δ) (items : List α) :
    (items.mapM fun item => (f item).mapError g) = (items.mapM f).mapError g := by
  induction items with
  | nil => rfl
  | cons item items ih =>
      rw [mapM_cons_eq, mapM_cons_eq, ih]
      cases f item with
      | error fault => rfl
      | ok result => cases items.mapM f <;> rfl

/-- To ask for results and then for the parts of each. -/
theorem mapM_map_flatMap (f : α → Except ε β) (g : β → List γ) (items : List α) :
    (items.mapM f).map (List.flatMap g) =
      (items.mapM fun item => (f item).map g).map List.flatten := by
  rw [mapM_map_result]
  cases items.mapM f with
  | error fault => rfl
  | ok results => exact congrArg Except.ok List.flatMap_def

/-- To ask group by group is to ask for all. -/
theorem mapM_flatMap (f : β → Except ε γ) (g : α → List β) (items : List α) :
    (items.flatMap g).mapM f = (items.mapM fun item => (g item).mapM f).map List.flatten := by
  induction items with
  | nil => rfl
  | cons item items ih =>
      rw [List.flatMap_cons, List.mapM_append, ih, mapM_cons_eq]
      cases (g item).mapM f with
      | error fault => rfl
      | ok results => cases items.mapM fun item => (g item).mapM f <;> rfl

/-! ## The first exception -/

/-- All items have a property, or there is a first one that has not. -/
theorem forall_or_exists_first (property : α → Prop) (items : List α) :
    (∀ item ∈ items, property item) ∨
      ∃ earlier item later, items = earlier ++ item :: later ∧
        (∀ before ∈ earlier, property before) ∧ ¬ property item := by
  induction items with
  | nil => exact Or.inl (by simp)
  | cons item items ih =>
      by_cases held : property item
      · rcases ih with all | ⟨earlier, next, later, rfl, before, fails⟩
        · exact Or.inl (List.forall_mem_cons.2 ⟨held, all⟩)
        · exact Or.inr ⟨item :: earlier, next, later, rfl,
            List.forall_mem_cons.2 ⟨held, before⟩, fails⟩
      · exact Or.inr ⟨[], item, items, rfl, by simp, held⟩

end Pkgsrc
