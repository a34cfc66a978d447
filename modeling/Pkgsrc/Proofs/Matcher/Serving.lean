/-
# Pkgsrc.Proofs.Matcher.Serving -- a matcher after any steps

Whatever steps a new matcher that keeps patterns has taken, it answers as one that keeps none.  It
keeps a pattern for exactly the well-formed texts that were asked for since it last forgot all
(`AskedFor`), and its size is their number.  In each step it looks up certain texts in turn
(`Step.lookups`), and it parses those of them that it keeps no pattern for (`misses`): each
malformed text every time.

One step is followed on the ledger (`records_step`), and a run step by step (`records_served`).
What is held after a run is found from the end of the run, where the last step either asked for
the text, or forgot it, or left it as it was (`mem_held_ledgerOf_iff`).
-/
import Mathlib.Data.Set.Card
import Pkgsrc.Proofs.Matcher.Ledger

namespace Pkgsrc

set_option autoImplicit false

namespace Matcher

/-! ## What a step asks for -/

/-- The texts that are looked up in a step, in turn. -/
def Step.lookups : Step → List Text
  | .get text => [text]
  | .accepts pattern candidate => if mayMatch pattern candidate then [pattern] else []
  | .best pattern candidates =>
    ((tried pattern none candidates).filter (mayMatch pattern)).map fun _ => pattern
  | .contains _ => []
  | .size => []
  | .clear => []

/-- The step asks for the pattern of a text, to hand it out or for a candidate that may match. -/
def Step.AsksFor (text : Text) : Step → Prop
  | .get other => other = text
  | .accepts pattern candidate => pattern = text ∧ mayMatch pattern candidate
  | .best pattern candidates =>
    pattern = text ∧ ∃ candidate ∈ candidates, mayMatch pattern candidate
  | .contains _ => False
  | .size => False
  | .clear => False

/-- One of the steps asked for the text, and none of those after it forgot everything. -/
def AskedFor (text : Text) (steps : List Step) : Prop :=
  ∃ earlier step later, steps = earlier ++ step :: later ∧ step.AsksFor text ∧
    Step.clear ∉ later

/-- The texts to keep a pattern for: the well-formed ones that were asked for. -/
def retained (steps : List Step) : Set Text :=
  {text | (∃ pattern, Pattern.parse text = .ok pattern) ∧ AskedFor text steps}

/-- Of some texts that are looked up in turn, those that no pattern is kept for. -/
def misses : Matcher → List Text → List Text
  | _, [] => []
  | matcher, text :: texts =>
    let others := misses ((parsed text).run matcher).2 texts
    if (matcher.kept? text).isSome then others else text :: others

/-- What may not match is refused, and the next round begins. -/
theorem round_of_not_mayMatch {pattern candidate : Text}
    (compared : mayMatch pattern candidate = false) (best : Option Text) :
    round pattern best candidate = .ok best := by
  have answered := run_accepts pattern candidate forgetful
  rw [accepts, compared] at answered
  rw [round, ← answered]
  rfl

/-- No round fails before a candidate that may match. -/
theorem exists_tried_iff {pattern : Text} {best : Option Text} {candidates : List Text} :
    (∃ candidate ∈ tried pattern best candidates, mayMatch pattern candidate) ↔
      ∃ candidate ∈ candidates, mayMatch pattern candidate := by
  induction candidates generalizing best with
  | nil => rfl
  | cons candidate others ih =>
      cases compared : mayMatch pattern candidate with
      | true => simp [tried, compared]
      | false =>
          rw [tried, round_of_not_mayMatch compared]
          simp [compared, ih]

theorem Step.mem_lookups_iff {text : Text} {step : Step} :
    text ∈ step.lookups ↔ step.AsksFor text := by
  cases step with
  | get other => simp [lookups, AsksFor, eq_comm]
  | accepts pattern candidate =>
      cases compared : mayMatch pattern candidate <;>
        simp [lookups, AsksFor, compared, eq_comm]
  | best pattern candidates =>
      rw [AsksFor, ← exists_tried_iff, lookups, List.mem_map]
      constructor
      · rintro ⟨candidate, found, rfl⟩
        obtain ⟨inside, compared⟩ := List.mem_filter.1 found
        exact ⟨rfl, candidate, inside, compared⟩
      · rintro ⟨rfl, candidate, inside, compared⟩
        exact ⟨candidate, List.mem_filter.2 ⟨inside, compared⟩, rfl⟩
  | contains other => simp [lookups, AsksFor]
  | size => simp [lookups, AsksFor]
  | clear => simp [lookups, AsksFor]

/-- The last step asked for the text, or it forgot nothing and the text was asked for before. -/
theorem askedFor_append_iff {text : Text} {steps : List Step} {last : Step} :
    AskedFor text (steps ++ [last]) ↔
      last.AsksFor text ∨ (last ≠ .clear ∧ AskedFor text steps) := by
  constructor
  · rintro ⟨earlier, step, later, shape, asks, uncleared⟩
    rcases concat_eq_append_cons_iff.1 shape with ⟨-, rfl, -⟩ | ⟨between, rfl, rfl⟩
    · exact Or.inl asks
    · rw [List.mem_append, not_or, List.mem_singleton] at uncleared
      exact Or.inr ⟨Ne.symm uncleared.2, earlier, step, between, rfl, asks, uncleared.1⟩
  · rintro (asks | ⟨keeps, earlier, step, later, rfl, asks, uncleared⟩)
    · exact ⟨steps, last, [], rfl, asks, List.not_mem_nil⟩
    · refine ⟨earlier, step, later ++ [last], by simp, asks, ?_⟩
      rw [List.mem_append, not_or, List.mem_singleton]
      exact ⟨uncleared, Ne.symm keeps⟩

end Matcher

/-! ## One step on the ledger -/

open Matcher

/-- The ledger after a step. -/
def Ledger.after (ledger : Ledger) : Step → Ledger
  | .clear => ⟨[], ledger.read⟩
  | step => step.lookups.foldl Ledger.look ledger

theorem Ledger.after_of_ne_clear {step : Step} (keeps : step ≠ .clear) (ledger : Ledger) :
    ledger.after step = step.lookups.foldl Ledger.look ledger := by
  cases step with
  | clear => exact absurd rfl keeps
  | _ => rfl

namespace Matcher

variable {ledger : Ledger} {matcher : Matcher}

theorem records_step (recorded : ledger.Records matcher) (step : Step) :
    (ledger.after step).Records (afterStep matcher step) := by
  cases step with
  | get text => exact records_parsed recorded text
  | contains text => exact recorded
  | size => exact recorded
  | clear => exact records_clear recorded
  | accepts pattern candidate =>
      have tried := records_accepts recorded pattern candidate
      rw [Ledger.after_of_ne_clear (by simp), Step.lookups]
      cases compared : mayMatch pattern candidate with
      | true =>
          rw [compared] at tried
          exact tried
      | false =>
          rw [compared] at tried
          exact tried
  | best pattern candidates =>
      have found := records_best recorded pattern none candidates
      rw [Ledger.after_of_ne_clear (by simp), Step.lookups, List.foldl_map, List.foldl_filter]
      exact found

/-- The texts that are parsed are those that are missed. -/
theorem read_foldl_look (recorded : ledger.Records matcher) (texts : List Text) :
    (texts.foldl Ledger.look ledger).read = ledger.read ++ misses matcher texts := by
  induction texts generalizing ledger matcher with
  | nil => exact (List.append_nil _).symm
  | cons text texts ih =>
      rw [List.foldl_cons, ih (records_parsed recorded text), Ledger.read_look, misses]
      by_cases held : text ∈ ledger.held
      · rw [if_pos held, if_pos (recorded.isSome_kept?_iff.2 held), List.append_nil]
      · rw [if_neg held, if_neg (mt recorded.isSome_kept?_iff.1 held), List.append_assoc,
          List.singleton_append]

theorem parsings_afterStep (recorded : ledger.Records matcher) (step : Step) :
    (afterStep matcher step).parsings = matcher.parsings ++ misses matcher step.lookups := by
  have next := records_step recorded step
  rw [next.parsings, recorded.parsings]
  cases step with
  | clear => exact (List.append_nil _).symm
  | _ => exact read_foldl_look recorded _

/-- A malformed text is missed whenever it is looked up. -/
theorem count_misses_of_error {text : Text} {fault : Malformed}
    (failed : Pattern.parse text = .error fault) (recorded : ledger.Records matcher)
    (texts : List Text) : (misses matcher texts).count text = texts.count text := by
  induction texts generalizing ledger matcher with
  | nil => rfl
  | cons looked texts ih =>
      have others := ih (records_parsed recorded looked)
      rw [misses]
      by_cases held : looked ∈ ledger.held
      · have other : looked ≠ text := by
          rintro rfl
          obtain ⟨pattern, parse⟩ := recorded.exists_parse_of_held held
          cases failed.symm.trans parse
        rw [if_pos (recorded.isSome_kept?_iff.2 held), others, List.count_cons_of_ne other]
      · rw [if_neg (mt recorded.isSome_kept?_iff.1 held), List.count_cons, List.count_cons, others]

/-- A step that looks up nothing but a malformed text leaves what is kept as it is. -/
theorem kept_afterStep_of_error {text : Text} {fault : Malformed}
    (failed : Pattern.parse text = .error fault) (recorded : ledger.Records matcher) {step : Step}
    (keeps : step ≠ .clear) (same : ∀ looked ∈ step.lookups, looked = text) :
    (afterStep matcher step).kept = matcher.kept := by
  apply recorded.kept_unique (records_step recorded step)
  rw [Ledger.after_of_ne_clear keeps]
  exact Ledger.held_foldl_look_of_error failed same

/-! ## Runs -/

/-- The ledger after some steps. -/
def ledgerOf (steps : List Step) : Ledger :=
  steps.foldl Ledger.after .empty

theorem records_foldl (recorded : ledger.Records matcher) (steps : List Step) :
    (steps.foldl Ledger.after ledger).Records (steps.foldl afterStep matcher) := by
  induction steps generalizing ledger matcher with
  | nil => exact recorded
  | cons step steps ih => exact ih (records_step recorded step)

theorem records_served (steps : List Step) : (ledgerOf steps).Records (served steps) :=
  records_foldl records_empty steps

theorem mem_held_ledgerOf_iff {text : Text} {steps : List Step} :
    text ∈ (ledgerOf steps).held ↔ text ∈ retained steps := by
  change text ∈ (ledgerOf steps).held ↔
    (∃ pattern, Pattern.parse text = .ok pattern) ∧ AskedFor text steps
  induction steps using List.reverseRecOn with
  | nil =>
      constructor
      · intro held
        cases held
      · rintro ⟨-, earlier, step, later, shape, -, -⟩
        simp at shape
  | append_singleton steps last ih =>
      have ledgers : ledgerOf (steps ++ [last]) = (ledgerOf steps).after last :=
        List.foldl_concat _ _ _ _
      rw [ledgers, askedFor_append_iff]
      by_cases keeps : last = .clear
      · subst keeps
        simp [Ledger.after, Step.AsksFor]
      · rw [Ledger.after_of_ne_clear keeps, Ledger.mem_held_foldl_look, ih, Step.mem_lookups_iff]
        tauto

theorem kept?_served_eq_some_iff {text : Text} {pattern : Pattern} {steps : List Step} :
    (served steps).kept? text = some pattern ↔
      Pattern.parse text = .ok pattern ∧ AskedFor text steps := by
  rw [(records_served steps).kept?_eq_some_iff, mem_held_ledgerOf_iff]
  constructor
  · rintro ⟨⟨-, asked⟩, parse⟩
    exact ⟨parse, asked⟩
  · rintro ⟨parse, asked⟩
    exact ⟨⟨⟨pattern, parse⟩, asked⟩, parse⟩

theorem coe_toFinset_held (steps : List Step) :
    ((ledgerOf steps).held.toFinset : Set Text) = retained steps := by
  ext text
  rw [Finset.mem_coe, List.mem_toFinset, mem_held_ledgerOf_iff]

theorem finite_retained (steps : List Step) : (retained steps).Finite :=
  coe_toFinset_held steps ▸ Finset.finite_toSet _

theorem size_served (steps : List Step) : (served steps).size = (retained steps).ncard := by
  have recorded := records_served steps
  rw [← coe_toFinset_held, Set.ncard_coe_finset, List.toFinset_card_of_nodup recorded.nodup_held]
  exact recorded.size_eq_length

/-- What is kept does not change what a question comes to. -/
theorem run_asStep {ε α : Type} (failed : ε → Failure) (answered : α → Answer)
    {question : Ask ε α} {matcher other : Matcher}
    (same : (question.run matcher).1 = (question.run other).1) :
    ((asStep failed answered question).run matcher).1 =
      ((asStep failed answered question).run other).1 :=
  congrArg (fun result => (result.map answered).mapError failed) same

/-- **A matcher keeps what it was asked for.**  After any steps, a new matcher keeps a pattern for
exactly the well-formed texts that were asked for since it last forgot all; it tells for each text
whether it keeps one, and how many it keeps; it answers as a matcher that keeps nothing; a
malformed text changes nothing that is kept; and of the texts that a step looks up, those are
parsed that no pattern is kept for, a malformed one every time. -/
theorem served_keeps_what_was_asked_for (steps : List Step) :
    (∀ text pattern, (served steps).kept? text = some pattern ↔
      Pattern.parse text = .ok pattern ∧ AskedFor text steps) ∧
    (∀ text, ∃ holds, ((perform (.contains text)).run (served steps)).1 = .ok (.truth holds) ∧
      (holds = true ↔ text ∈ retained steps)) ∧
    (∃ number, ((perform .size).run (served steps)).1 = .ok (.count number) ∧
      (retained steps).Finite ∧ number = (retained steps).ncard) ∧
    (∀ text, ((perform (.get text)).run (served steps)).1 =
      ((perform (.get text)).run forgetful).1) ∧
    (∀ pattern candidate, ((perform (.accepts pattern candidate)).run (served steps)).1 =
      ((perform (.accepts pattern candidate)).run forgetful).1) ∧
    (∀ pattern candidates, ((perform (.best pattern candidates)).run (served steps)).1 =
      ((perform (.best pattern candidates)).run forgetful).1) ∧
    (∀ text fault, Pattern.parse text = .error fault →
      (afterStep (served steps) (.get text)).kept = (served steps).kept ∧
      (∀ candidate, (afterStep (served steps) (.accepts text candidate)).kept =
        (served steps).kept) ∧
      (∀ candidates, (afterStep (served steps) (.best text candidates)).kept =
        (served steps).kept)) ∧
    (∀ step : Step, (afterStep (served steps) step).parsings =
      (served steps).parsings ++ misses (served steps) step.lookups) ∧
    (∀ (step : Step) (text : Text) (fault : Malformed), Pattern.parse text = .error fault →
      (misses (served steps) step.lookups).count text = step.lookups.count text) ∧
    (∀ text, (Note.parsing text).text = "Parsing pattern ".toList ++ text) := by
  have recorded := records_served steps
  refine ⟨?_, ?_, ?_, ?_, ?_, ?_, ?_, ?_, ?_, ?_⟩
  · intro text pattern
    exact kept?_served_eq_some_iff
  · intro text
    refine ⟨_, rfl, ?_⟩
    rw [recorded.isSome_kept?_iff, mem_held_ledgerOf_iff]
  · exact ⟨_, rfl, finite_retained steps, size_served steps⟩
  · intro text
    exact run_asStep _ _ ((run_parsed text _).trans (run_parsed text _).symm)
  · intro pattern candidate
    exact run_asStep _ _
      ((run_accepts pattern candidate _).trans (run_accepts pattern candidate _).symm)
  · intro pattern candidates
    exact run_asStep _ _
      ((run_best pattern candidates _).trans (run_best pattern candidates _).symm)
  · intro text fault failed
    refine ⟨?_, ?_, ?_⟩
    · apply kept_afterStep_of_error failed recorded (by simp)
      intro looked asked
      exact (Step.mem_lookups_iff.1 asked).symm
    · intro candidate
      apply kept_afterStep_of_error failed recorded (by simp)
      intro looked asked
      exact (Step.mem_lookups_iff.1 asked).1.symm
    · intro candidates
      apply kept_afterStep_of_error failed recorded (by simp)
      intro looked asked
      exact (Step.mem_lookups_iff.1 asked).1.symm
  · intro step
    exact parsings_afterStep recorded step
  · intro step text fault failed
    exact count_misses_of_error failed recorded step.lookups
  · intro text
    rfl

/-- Once `a` was asked for and forgotten, and `b` found to be the best candidate for `b`, a pattern
is kept for `b`; the malformed `{` is parsed when it is tried, and changes nothing. -/
theorem served_of_forgotten_and_malformed :
    let steps := [.get ['a'], .clear, .best ['b'] [['a'], ['b']]]
    Pattern.parse ['b'] = .ok (.leaf (.exact ['b'])) ∧ AskedFor ['b'] steps ∧
      (served steps).kept? ['b'] = some (.leaf (.exact ['b'])) ∧
      (∃ fault, Pattern.parse ['{'] = .error fault) ∧
      (afterStep (served steps) (.accepts ['{'] ['b'])).kept = (served steps).kept ∧
      (misses (served steps) (Step.accepts ['{'] ['b']).lookups).count ['{'] = 1 := by
  intro steps
  have name : Pattern.parse ['b'] = .ok (.leaf (.exact ['b'])) := by
    rw [Pattern.parse_of_no_braces (by decide)]
    rfl
  have broken : Pattern.parse ['{'] = .error _ := Pattern.parse_of_fault rfl
  have asked : AskedFor ['b'] steps :=
    ⟨[.get ['a'], .clear], .best ['b'] [['a'], ['b']], [], rfl,
      ⟨rfl, ['b'], by decide, rfl⟩, List.not_mem_nil⟩
  have keeps := served_keeps_what_was_asked_for steps
  refine ⟨name, asked, (keeps.1 _ _).2 ⟨name, asked⟩, ⟨_, broken⟩, ?_, ?_⟩
  · exact (keeps.2.2.2.2.2.2.1 _ _ broken).2.1 ['b']
  · exact keeps.2.2.2.2.2.2.2.2.1 (.accepts ['{'] ['b']) _ _ broken

end Matcher

end Pkgsrc
