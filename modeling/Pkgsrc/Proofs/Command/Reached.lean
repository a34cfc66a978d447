/-
# Pkgsrc.Proofs.Command.Reached -- how far a scan gets

A scan goes through the patterns, and for each of them through the names.  A pattern that has been
parsed is held from then on, so trying a name on it leaves what is kept as it is
(`run_ask_accepts`); what is held and what was read is known from the patterns that have been
reached (`reachedLedger`).  As long as patterns can be parsed and names can be tried, the lines are
those of the answers that a matcher without kept patterns gives (`run_scanPatterns_append`).  A
malformed pattern ends the scan, and so does a number that is too long
(`run_scanPatterns_of_malformed`, `run_scanPatterns_of_untried`).
-/
import Pkgsrc.Command.Programs
import Pkgsrc.Proofs.Command.Session
import Pkgsrc.Proofs.Matcher.Best
import Pkgsrc.Proofs.Matcher.Ledger

namespace Pkgsrc

set_option autoImplicit false

namespace Command

open Matcher (answer accepted)

/-! ## The lines for a pattern -/

/-- The lines that a scan prints for a pattern. -/
def matchLines (names : List Text) (pattern : Text) : List Text :=
  (accepted pattern names).map (pattern ++ ' ' :: ·)

theorem matchLines_cons_of_ok {pattern name : Text} {held : Bool}
    (answered : answer pattern name = .ok held) (names : List Text) :
    matchLines (name :: names) pattern =
      (if held then [pattern ++ ' ' :: name] else []) ++ matchLines names pattern := by
  rw [matchLines, Matcher.accepted_cons, answered, matchLines]
  cases held <;> rfl

/-- The names can be tried on the pattern, whatever the answers are. -/
def Answered (names : List Text) (pattern : Text) : Prop :=
  ∀ name ∈ names, ∃ held, ((Matcher.accepts pattern name).run .forgetful).1 = .ok held

theorem answered_iff {names : List Text} {pattern : Text} :
    Answered names pattern ↔ ∀ name ∈ names, ∃ held, answer pattern name = .ok held := by
  simp only [Answered, Matcher.run_accepts]

variable {ledger : Ledger} {kept : Option Cache} {session : Session} {pattern name : Text}

/-- A pattern that is held is not parsed again, and what is kept stays as it is. -/
theorem run_ask_accepts (recorded : ledger.Records ⟨kept, session.notes⟩)
    (inside : pattern ∈ ledger.held) (name : Text) :
    ∃ notes, ledger.Records ⟨kept, notes⟩ ∧
      (Act.ask .matching kept (Matcher.accepts pattern name)).run session =
        (((answer pattern name).mapError .matching).map (·, kept), session.further [] notes) := by
  have tried := Matcher.records_accepts recorded pattern name
  rw [Ledger.look_of_held inside, ite_self] at tried
  have same : ((Matcher.accepts pattern name).run ⟨kept, session.notes⟩).2.kept = kept :=
    recorded.kept_unique tried rfl
  rw [Act.run_ask, Matcher.run_accepts, same]
  refine ⟨_, ⟨?_, tried.parsings⟩, rfl⟩
  rw [← same]
  exact tried.kept

/-- Names that can be tried are tried one after the other. -/
theorem run_scanNames_append {names : List Text} (inside : pattern ∈ ledger.held)
    (answered : Answered names pattern) (rest : List Text) :
    ∀ {session : Session}, ledger.Records ⟨kept, session.notes⟩ →
      ∃ notes, ledger.Records ⟨kept, notes⟩ ∧
        (scanNames pattern kept (names ++ rest)).run session =
          (scanNames pattern kept rest).run (session.further (matchLines names pattern) notes) := by
  induction names with
  | nil =>
      intro session recorded
      refine ⟨session.notes, recorded, ?_⟩
      rw [matchLines, accepted, List.filter_nil, List.map_nil, Session.further_nil]
      rfl
  | cons name names ih =>
      intro session recorded
      obtain ⟨⟨held, first⟩, others⟩ := List.forall_mem_cons.1 answered
      rw [Matcher.run_accepts] at first
      obtain ⟨notes, recordedAfter, asked⟩ := run_ask_accepts recorded inside name
      rw [first] at asked
      let next := session.further (if held then [pattern ++ ' ' :: name] else []) notes
      have recordedNext : ledger.Records ⟨kept, next.notes⟩ := recordedAfter
      obtain ⟨later, recordedLater, ran⟩ := ih others recordedNext
      refine ⟨later, recordedLater, ?_⟩
      rw [matchLines_cons_of_ok first, ← Session.further_further _ _ _ notes, ← ran,
        List.cons_append, scanNames, run_bind, asked]
      cases held with
      | false => rfl
      | true =>
          change (Act.print _ >>= fun _ => scanNames pattern kept (names ++ rest)).run _ = _
          rw [run_bind, Act.run_print, Session.further_further]
          rfl

/-- A pattern is parsed if it is not held, whatever becomes of it. -/
theorem run_ask_parsed (recorded : ledger.Records ⟨kept, session.notes⟩) (pattern : Text) :
    ∃ next notes, (ledger.look pattern).Records ⟨next, notes⟩ ∧
      (Act.ask .malformed kept (Matcher.parsed pattern)).run session =
        (((Pattern.parse pattern).mapError .malformed).map (·, next),
          session.further [] notes) := by
  have looked := Matcher.records_parsed recorded pattern
  rw [Act.run_ask, Matcher.run_parsed]
  exact ⟨_, _, looked, rfl⟩

/-! ## The patterns that are reached -/

theorem eraseDups_concat (items : List Text) (item : Text) :
    (items ++ [item]).eraseDups =
      items.eraseDups ++ if item ∈ items then [] else [item] := by
  rw [List.eraseDups_append]
  by_cases inside : item ∈ items
  · simp [inside, List.removeAll]
  · simp [inside, List.removeAll, List.eraseDups_cons]

/-- What is held and what was read when these patterns have been reached and parsed. -/
def reachedLedger (before reached : List Text) : Ledger :=
  ⟨reached.eraseDups.reverse, before ++ reached.eraseDups⟩

variable {before reached : List Text}

theorem mem_held_reachedLedger :
    pattern ∈ (reachedLedger before reached).held ↔ pattern ∈ reached := by
  simp [reachedLedger]

theorem read_look_reachedLedger (pattern : Text) :
    ((reachedLedger before reached).look pattern).read =
      before ++ (reached ++ [pattern]).eraseDups := by
  rw [Ledger.read_look, eraseDups_concat, ← List.append_assoc]
  congr 1
  simp only [mem_held_reachedLedger]

theorem look_reachedLedger {read : Pattern} (parsed : Pattern.parse pattern = .ok read) :
    (reachedLedger before reached).look pattern = reachedLedger before (reached ++ [pattern]) := by
  by_cases inside : pattern ∈ reached
  · rw [Ledger.look_of_held (mem_held_reachedLedger.2 inside), reachedLedger, reachedLedger,
      eraseDups_concat, if_pos inside, List.append_nil]
  · have absent : pattern ∉ (reachedLedger before reached).held := fun held =>
      inside (mem_held_reachedLedger.1 held)
    rw [Ledger.look_of_ok absent parsed, reachedLedger, reachedLedger, eraseDups_concat,
      if_neg inside, List.reverse_append, List.append_assoc]
    rfl

/-- The pattern can be parsed, and all names can be tried on it. -/
structure Tractable (names : List Text) (pattern : Text) : Prop where
  parsed : ∃ read, Pattern.parse pattern = .ok read
  answered : Answered names pattern

/-- A pattern that can be parsed is parsed, and then the names are tried on it. -/
theorem run_scanPatterns_cons {names tried untried : List Text}
    (recorded : (reachedLedger before reached).Records ⟨kept, session.notes⟩)
    (parsed : ∃ read, Pattern.parse pattern = .ok read) (shape : names = tried ++ untried)
    (answered : Answered tried pattern) (rest : List Text) :
    ∃ next notes, (reachedLedger before (reached ++ [pattern])).Records ⟨next, notes⟩ ∧
      (scanPatterns names kept (pattern :: rest)).run session =
        (scanNames pattern next untried >>= fun kept => scanPatterns names kept rest).run
          (session.further (matchLines tried pattern) notes) := by
  obtain ⟨read, isParse⟩ := parsed
  obtain ⟨next, notes, looked, asked⟩ := run_ask_parsed recorded pattern
  rw [look_reachedLedger isParse] at looked
  rw [isParse] at asked
  have inside : pattern ∈ (reachedLedger before (reached ++ [pattern])).held :=
    mem_held_reachedLedger.2 (List.mem_append_right _ List.mem_cons_self)
  obtain ⟨after, recordedAfter, ran⟩ := run_scanNames_append inside answered untried
    (show Ledger.Records _ ⟨next, (session.further [] notes).notes⟩ from looked)
  rw [Session.further_further, List.nil_append] at ran
  refine ⟨next, after, recordedAfter, ?_⟩
  rw [scanPatterns, run_bind, asked]
  change (scanNames pattern next names >>= _).run _ = _
  rw [run_bind, run_bind, shape, ran]

/-- Tractable patterns are gone through one after the other. -/
theorem run_scanPatterns_append {names patterns : List Text}
    (tractable : ∀ pattern ∈ patterns, Tractable names pattern) (rest : List Text) :
    ∀ {reached : List Text} {kept : Option Cache} {session : Session},
      (reachedLedger before reached).Records ⟨kept, session.notes⟩ →
      ∃ next notes, (reachedLedger before (reached ++ patterns)).Records ⟨next, notes⟩ ∧
        (scanPatterns names kept (patterns ++ rest)).run session =
          (scanPatterns names next rest).run
            (session.further (patterns.flatMap (matchLines names)) notes) := by
  induction patterns with
  | nil =>
      intro reached kept session recorded
      refine ⟨kept, session.notes, ?_, ?_⟩
      · rw [List.append_nil]
        exact recorded
      · rw [List.flatMap_nil, Session.further_nil]
        rfl
  | cons pattern patterns ih =>
      intro reached kept session recorded
      obtain ⟨first, others⟩ := List.forall_mem_cons.1 tractable
      obtain ⟨next, notes, recordedNext, tried⟩ := run_scanPatterns_cons recorded first.parsed
        (List.append_nil names).symm first.answered (patterns ++ rest)
      let later := session.further (matchLines names pattern) notes
      have recordedLater : (reachedLedger before (reached ++ [pattern])).Records
          ⟨next, later.notes⟩ := recordedNext
      obtain ⟨last, final, recordedLast, ran⟩ := ih others recordedLater
      refine ⟨last, final, ?_, ?_⟩
      · rw [List.append_assoc] at recordedLast
        exact recordedLast
      · rw [List.flatMap_cons, ← Session.further_further session _ _ notes, ← ran,
          List.cons_append, tried, run_bind]
        rfl

/-! ## How it ends -/

/-- A malformed pattern ends a scan. -/
theorem run_scanPatterns_of_malformed {fault : Malformed} {names : List Text}
    (recorded : (reachedLedger before reached).Records ⟨kept, session.notes⟩)
    (failed : Pattern.parse pattern = .error fault) (rest : List Text) :
    ∃ notes : Journal,
      notes.toList.filterMap Note.parsing? = before ++ (reached ++ [pattern]).eraseDups ∧
        (scanPatterns names kept (pattern :: rest)).run session =
          (.error (.malformed fault), session.further [] notes) := by
  obtain ⟨next, notes, looked, asked⟩ := run_ask_parsed recorded pattern
  rw [failed] at asked
  refine ⟨notes, ?_, ?_⟩
  · rw [← read_look_reachedLedger]
    exact looked.parsings
  · rw [scanPatterns, run_bind, asked]
    rfl

/-- A name that cannot be tried on a pattern, behind others that can. -/
structure FailsOn (names : List Text) (pattern : Text) (tried : List Text) (name : Text)
    (cause : NumberFault) : Prop where
  parsed : ∃ read, Pattern.parse pattern = .ok read
  shape : ∃ untried, names = tried ++ name :: untried
  answered : Answered tried pattern
  failed : ((Matcher.accepts pattern name).run .forgetful).1 = .error (.number cause)

/-- So does a name that cannot be tried, when the names before it have been. -/
theorem run_scanPatterns_of_untried {names tried : List Text} {cause : NumberFault}
    (recorded : (reachedLedger before reached).Records ⟨kept, session.notes⟩)
    (fails : FailsOn names pattern tried name cause) (rest : List Text) :
    ∃ notes : Journal,
      notes.toList.filterMap Note.parsing? = before ++ (reached ++ [pattern]).eraseDups ∧
        (scanPatterns names kept (pattern :: rest)).run session =
          (.error (.matching (.number cause)),
            session.further (matchLines tried pattern) notes) := by
  obtain ⟨parsed, ⟨untried, shape⟩, answered, failed⟩ := fails
  rw [Matcher.run_accepts] at failed
  obtain ⟨next, notes, recordedNext, ran⟩ :=
    run_scanPatterns_cons recorded parsed shape answered rest
  have inside : pattern ∈ (reachedLedger before (reached ++ [pattern])).held :=
    mem_held_reachedLedger.2 (List.mem_append_right _ List.mem_cons_self)
  obtain ⟨last, recordedLast, stopped⟩ := run_ask_accepts
    (show Ledger.Records _ ⟨next, (session.further (matchLines tried pattern) notes).notes⟩
      from recordedNext) inside name
  rw [failed, Session.further_further, List.append_nil] at stopped
  refine ⟨last, recordedLast.parsings, ?_⟩
  rw [ran, run_bind, scanNames, run_bind, stopped]
  rfl

end Command

end Pkgsrc
