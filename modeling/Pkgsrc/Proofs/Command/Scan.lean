/-
# Pkgsrc.Proofs.Command.Scan -- what a scan prints and how it ends

The line `scan p n` reads the names from `n` and the patterns from `p` and scans them
(`run_scanLine`, `run_scan`).  What it comes to (`ScanComesTo`) depends on the first pattern that
may not be gone through: without one it is done (`scan_of_tractable`), a malformed one makes it fail
(`scan_of_malformed`), and a name that cannot be tried, for a number is too long, crashes it
(`scan_of_untried`).

A number can be too long only where a name, or a text that a pattern expands to, has too many
digits in a row.  Braces may join digits that do not stand next to each other in the line, as in
`a>{11}11` (`joining`).
-/
import Pkgsrc.Proofs.Command.Line
import Pkgsrc.Proofs.Command.Reached
import Pkgsrc.Proofs.Matcher.Relations

namespace Pkgsrc

set_option autoImplicit false

namespace Command

open Matcher (answer aboveZero)

/-! ## The command -/

variable {files : Text → Option Bytes} {web between later : Web} {p n pattern name : Text}
  {patterns names : List Text}

theorem run_scan (namesHeld : Listing.Holds files web n names between)
    (patternsHeld : Listing.Holds files between p patterns later) :
    (scan p (some n)).run (.start files web) =
      (do
        let kept ← scanPatterns names (some .empty) patterns
        Act.note (.scanned ((kept.map Cache.size).getD 0)) : Act Unit).run (.start files later) := by
  have first : (Act.readEntries n).run (.start files web) = (.ok names, .start files between) :=
    Act.run_readEntries namesHeld
  have second : (Act.readEntries p).run (.start files between) =
      (.ok patterns, .start files later) :=
    Act.run_readEntries patternsHeld
  change (Act.readEntries n >>= _).run _ = _
  rw [run_bind, first]
  change (Act.readEntries p >>= _).run (Session.start files between) = _
  rw [run_bind, second]

/-- The words of the line. -/
def scanLine (p n : Text) (debugging : Bool) : List Text :=
  Request.flagged debugging ["scan".toList, p, n]

theorem run_scanLine (plain : Words.read [p, n] = .plain [.operand p, .operand n])
    (debugging : Bool) (session : Session) :
    run standard session (scanLine p n debugging) =
      match (scan p (some n)).run session with
      | (result, final) => conclude debugging final result := by
  have noMark : markText ∉ [p, n] := Words.mark_not_mem_of_plain plain
  obtain ⟨pMark, nMark⟩ : p ≠ markText ∧ n ≠ markText := by
    simpa [eq_comm] using noMark
  have found : find? standard "scan".toList = some standard[3] := rfl
  have taken : Arguments.ofItems? standard[3].parameters [.operand p, .operand n] =
      some [("patterns".toList, .one p), ("pkgnames".toList, .one n)] := by
    simp [standard, Arguments.ofItems?, slices, Item.cut, share, Arity.least,
      Argument.ofSlice, Item.text, Item.isOperand, List.countP_cons, pMark, nMark]
  rw [run, scanLine, Request.read_of_plain plain (by decide) (by decide) found taken]
  rfl

/-- What the line comes to: how it ends, what it prints, and its notes, of which the last ones may
depend on whether it debugs.  Of the patterns that it reaches each is parsed once, in order. -/
def ScanComesTo (files : Text → Option Bytes) (web later : Web) (p n : Text) (ending : Ending)
    (reached printed : List Text) (last : Bool → List Note) : Prop :=
  ∃ noted : List Note,
    noted.filterMap Note.parsing? =
      later.notes.toList.filterMap Note.parsing? ++ reached.eraseDups ∧
    ∀ debugging, run standard (.start files web) (scanLine p n debugging) =
      ⟨ending, printed, (noted ++ last debugging).filter (Note.isShown debugging), later.requested⟩

theorem records_start (later : Web) :
    (reachedLedger (later.notes.toList.filterMap Note.parsing?) []).Records
      ⟨some .empty, later.notes⟩ :=
  ⟨⟨.empty, rfl, rfl⟩, (List.append_nil _).symm⟩

section Ends

variable (plain : Words.read [p, n] = .plain [.operand p, .operand n])
  (namesHeld : Listing.Holds files web n names between)
  (patternsHeld : Listing.Holds files between p patterns later)
include plain namesHeld patternsHeld

/-- Tractable patterns at the start of the listing: the line goes on behind them. -/
theorem run_scanLine_append {earlier rest : List Text} (shape : patterns = earlier ++ rest)
    (tractable : ∀ pattern ∈ earlier, Tractable names pattern) :
    ∃ kept notes,
      (reachedLedger (later.notes.toList.filterMap Note.parsing?) earlier).Records ⟨kept, notes⟩ ∧
      ∀ debugging, run standard (.start files web) (scanLine p n debugging) =
        match (do
            let kept ← scanPatterns names kept rest
            Act.note (.scanned ((kept.map Cache.size).getD 0)) : Act Unit).run
              ((Session.start files later).further (earlier.flatMap (matchLines names)) notes) with
        | (result, final) => conclude debugging final result := by
  obtain ⟨kept, notes, recorded, ran⟩ := run_scanPatterns_append tractable rest
    (show Ledger.Records _ ⟨some .empty, (Session.start files later).notes⟩
      from records_start later)
  refine ⟨kept, notes, recorded, fun debugging => ?_⟩
  rw [run_scanLine plain, run_scan namesHeld patternsHeld, shape, run_bind, run_bind, ran]

theorem scan_of_tractable (tractable : ∀ pattern ∈ patterns, Tractable names pattern) :
    ScanComesTo files web later p n .done patterns (patterns.flatMap (matchLines names))
      fun _ => [.scanned patterns.eraseDups.length] := by
  obtain ⟨kept, notes, recorded, ran⟩ := run_scanLine_append plain namesHeld patternsHeld
    (List.append_nil patterns).symm tractable
  have count : (kept.map Cache.size).getD 0 = patterns.eraseDups.length := by
    have size := recorded.size_eq_length
    rw [reachedLedger, List.length_reverse] at size
    exact size
  refine ⟨notes.toList, recorded.parsings, fun debugging => ?_⟩
  rw [ran, scanPatterns, run_bind]
  change (match (Act.note (.scanned ((kept.map Cache.size).getD 0))).run _ with
    | (result, final) => conclude debugging final result) = _
  rw [Act.run_note, count, Session.further_further]
  change Outcome.ofSession _ _ _ = _
  rw [Outcome.ofSession_further, Session.further_notes, Array.toList_push, List.append_nil]
  rfl

/-- The first pattern that may not be gone through. -/
structure StopsAt (names patterns earlier : List Text) (pattern : Text) : Prop where
  shape : ∃ rest, patterns = earlier ++ pattern :: rest
  tractable : ∀ before ∈ earlier, Tractable names before

theorem scan_of_malformed {earlier : List Text} {fault : Malformed}
    (stops : StopsAt names patterns earlier pattern)
    (failed : Pattern.parse pattern = .error fault) :
    ScanComesTo files web later p n .failed (earlier ++ [pattern])
      (earlier.flatMap (matchLines names))
      fun debugging => [.failed (.ofMalformed fault) debugging] := by
  obtain ⟨⟨rest, shape⟩, tractable⟩ := stops
  obtain ⟨kept, notes, recorded, ran⟩ :=
    run_scanLine_append plain namesHeld patternsHeld shape tractable
  obtain ⟨last, read, stopped⟩ := run_scanPatterns_of_malformed
    (show Ledger.Records _ ⟨kept, ((Session.start files later).further _ notes).notes⟩
      from recorded) failed rest
  refine ⟨last.toList, read, fun debugging => ?_⟩
  rw [ran, run_bind, stopped, Session.further_further, List.append_nil]
  change Outcome.ofSession .failed debugging ((Act.note _).run _).2 = _
  rw [Act.run_note, Session.further_further, List.append_nil, Outcome.ofSession_further,
    Session.further_notes, Array.toList_push]
  rfl

theorem scan_of_untried {earlier tried : List Text} {cause : NumberFault}
    (stops : StopsAt names patterns earlier pattern)
    (fails : FailsOn names pattern tried name cause) :
    ScanComesTo files web later p n (.crashed (.matching (.number cause))) (earlier ++ [pattern])
      (earlier.flatMap (matchLines names) ++ matchLines tried pattern) fun _ => [] := by
  obtain ⟨⟨rest, shape⟩, tractable⟩ := stops
  obtain ⟨kept, notes, recorded, ran⟩ :=
    run_scanLine_append plain namesHeld patternsHeld shape tractable
  obtain ⟨last, parsings, stopped⟩ := run_scanPatterns_of_untried
    (show Ledger.Records _ ⟨kept, ((Session.start files later).further _ notes).notes⟩
      from recorded) fails rest
  refine ⟨last.toList, parsings, fun debugging => ?_⟩
  rw [ran, run_bind, stopped, Session.further_further]
  change Outcome.ofSession (.crashed (.matching (.number cause))) debugging _ = _
  rw [Outcome.ofSession_further, List.append_nil]
  rfl

end Ends

/-! ## All cases -/

theorem answered_or_failsOn {pattern : Text} {read : Pattern}
    (parsed : Pattern.parse pattern = .ok read) (names : List Text) :
    Answered names pattern ∨ ∃ tried name cause, FailsOn names pattern tried name cause := by
  rcases forall_or_exists_first (fun name => ∃ held, answer pattern name = .ok held) names with
    answered | ⟨tried, name, untried, shape, answered, stuck⟩
  · exact Or.inl (answered_iff.2 answered)
  · rcases Matcher.answer_eq_ok_or_number pattern name with fine | ⟨cause, failed⟩
    · exact absurd fine stuck
    · exact Or.inr ⟨tried, name, cause, ⟨read, parsed⟩, ⟨untried, shape⟩, answered_iff.2 answered,
        (Matcher.run_accepts pattern name .forgetful).trans failed⟩

theorem tractable_or_stopsAt (names patterns : List Text) :
    (∀ pattern ∈ patterns, Tractable names pattern) ∨
      ∃ earlier pattern, StopsAt names patterns earlier pattern ∧
        ((∃ fault, Pattern.parse pattern = .error fault) ∨
          ∃ tried name cause, FailsOn names pattern tried name cause) := by
  rcases forall_or_exists_first (Tractable names) patterns with
    tractable | ⟨earlier, pattern, rest, shape, tractable, stuck⟩
  · exact Or.inl tractable
  · refine Or.inr ⟨earlier, pattern, ⟨⟨rest, shape⟩, tractable⟩, ?_⟩
    cases parsed : Pattern.parse pattern with
    | error fault => exact Or.inl ⟨fault, rfl⟩
    | ok read =>
        rcases answered_or_failsOn parsed names with answered | fails
        · exact absurd ⟨⟨read, parsed⟩, answered⟩ stuck
        · exact Or.inr fails

/-- **A scan prints the pairs that match, pattern by pattern.**  If all patterns can be parsed and
all names can be tried on them, the scan is done; the first pattern that is malformed makes it
fail, and the first name that cannot be tried, for a number is too long, crashes it.  What it has
printed before stays.  There is no other case, and no name is left untried when the names and the
texts that the patterns expand to have no number that is too long. -/
theorem scan_prints_pairs_that_match
    (plain : Words.read [p, n] = .plain [.operand p, .operand n])
    (namesHeld : Listing.Holds files web n names between)
    (patternsHeld : Listing.Holds files between p patterns later) :
    ((∀ pattern ∈ patterns, Tractable names pattern) →
      ScanComesTo files web later p n .done patterns (patterns.flatMap (matchLines names))
        fun _ => [.scanned patterns.eraseDups.length]) ∧
    (∀ earlier pattern fault, StopsAt names patterns earlier pattern →
      Pattern.parse pattern = .error fault →
      ScanComesTo files web later p n .failed (earlier ++ [pattern])
        (earlier.flatMap (matchLines names))
        fun debugging => [.failed (.ofMalformed fault) debugging]) ∧
    (∀ earlier pattern tried name cause, StopsAt names patterns earlier pattern →
      FailsOn names pattern tried name cause →
      ScanComesTo files web later p n (.crashed (.matching (.number cause))) (earlier ++ [pattern])
        (earlier.flatMap (matchLines names) ++ matchLines tried pattern) fun _ => []) ∧
    ((∀ pattern ∈ patterns, Tractable names pattern) ∨
      ∃ earlier pattern, StopsAt names patterns earlier pattern ∧
        ((∃ fault, Pattern.parse pattern = .error fault) ∨
          ∃ tried name cause, FailsOn names pattern tried name cause)) ∧
    (∀ (pattern : Text) (read : Pattern) (tree : Braces.Sequence),
      Pattern.parse pattern = .ok read → tree.Reads pattern →
      (∀ text ∈ tree.expand, Decimal.Within text) → (∀ name ∈ names, Decimal.Within name) →
      Tractable names pattern) := by
  refine ⟨scan_of_tractable plain namesHeld patternsHeld, ?_, ?_, tractable_or_stopsAt names patterns,
    ?_⟩
  · intro earlier pattern fault stops failed
    exact scan_of_malformed plain namesHeld patternsHeld stops failed
  · intro earlier pattern tried name cause stops fails
    exact scan_of_untried plain namesHeld patternsHeld stops fails
  · intro pattern read tree parsed reads shortTexts shortNames
    exact ⟨⟨read, parsed⟩, answered_iff.2 fun name held =>
      Matcher.exists_answer_of_reads reads parsed (shortNames name held) shortTexts⟩

/-- A listing of patterns and one of names. -/
def twoListings (patterns names : Text) : Text → Option Bytes := fun path =>
  if path = ['p'] then Encoding.utf8.encode patterns
  else if path = ['n'] then Encoding.utf8.encode names
  else none

theorem holds_twoListings {patternText nameText : Text}
    (patternsListed : Text.Lists patterns patternText) (namesListed : Text.Lists names nameText)
    (web : Web) :
    Listing.Holds (twoListings patternText nameText) web ['n'] names web ∧
      Listing.Holds (twoListings patternText nameText) web ['p'] patterns web :=
  ⟨Listing.holds_of_stored rfl rfl namesListed, Listing.holds_of_stored rfl rfl patternsListed⟩

theorem isEntry_one : Text.IsEntry ['a', '-', '1'] :=
  Text.isEntry_of_no_space (by decide) (by decide)

theorem plain_one_letter : Words.read [['p'], ['n']] = .plain [.operand ['p'], .operand ['n']] :=
  rfl

/-- `a>0` twice prints `a-1` twice but is parsed once, and a brace behind it makes the scan fail. -/
theorem scan_of_repeated_and_malformed_patterns :
    ScanComesTo (twoListings (aboveZero ++ '\n' :: aboveZero) ['a', '-', '1']) .silent .silent
      ['p'] ['n'] .done [aboveZero, aboveZero]
      [['a', '>', '0', ' ', 'a', '-', '1'], ['a', '>', '0', ' ', 'a', '-', '1']]
      (fun _ => [.scanned 1]) ∧
    ∃ fault, ScanComesTo (twoListings (aboveZero ++ '\n' :: ['}']) ['a', '-', '1']) .silent .silent
      ['p'] ['n'] .failed [aboveZero, ['}']] [['a', '>', '0', ' ', 'a', '-', '1']]
      (fun debugging => [.failed (.ofMalformed fault) debugging]) := by
  have entry : Text.IsEntry aboveZero := Text.isEntry_of_no_space (by decide) (by decide)
  have brace : Text.IsEntry ['}'] := Text.isEntry_of_no_space (by decide) (by decide)
  have ends : Text.isLineBoundary '\n' = true := rfl
  have accepted : answer aboveZero ['a', '-', '1'] = .ok true := Matcher.answer_aboveZero _
  have lines : matchLines [['a', '-', '1']] aboveZero = [['a', '>', '0', ' ', 'a', '-', '1']] := by
    rw [matchLines_cons_of_ok accepted]
    rfl
  have tractable : Tractable [['a', '-', '1']] aboveZero := by
    refine ⟨⟨.leaf (.relation ⟨['a'], .gt, ['0']⟩), ?_⟩, answered_iff.2 (by simp [accepted])⟩
    rw [aboveZero, Pattern.parse_of_no_braces (by decide)]
    rfl
  constructor
  · obtain ⟨namesHeld, patternsHeld⟩ :=
      holds_twoListings (.cons entry ends (.last entry)) (.last isEntry_one) .silent
    have scanned := (scan_prints_pairs_that_match plain_one_letter namesHeld patternsHeld).1
      (by simp [tractable])
    rwa [List.flatMap_cons, List.flatMap_singleton, lines] at scanned
  · obtain ⟨namesHeld, patternsHeld⟩ :=
      holds_twoListings (.cons entry ends (.last brace)) (.last isEntry_one) .silent
    have stops : StopsAt [['a', '-', '1']] [aboveZero, ['}']] [aboveZero] ['}'] :=
      ⟨⟨[], rfl⟩, by simp [tractable]⟩
    have failed := Pattern.parse_of_fault
      (show Braces.firstGroup ['}'] = .error (.unbalanced 0) from rfl)
    have scanned := (scan_prints_pairs_that_match plain_one_letter namesHeld patternsHeld).2.1
      _ _ _ stops failed
    rw [List.flatMap_singleton, lines] at scanned
    exact ⟨_, scanned⟩

/-! ## Digits that braces join -/

/-- The relation `a>11…`, with twice as many digits. -/
def joined (count : Nat) : Relation :=
  ⟨['a'], .gt, List.replicate count '1' ++ List.replicate count '1'⟩

/-- The pattern `a>{11…}11…` for it, with so many digits in the braces and behind them. -/
def joining (count : Nat) : Text :=
  ['a', '>'] ++ '{' :: (List.replicate count '1' ++ '}' :: List.replicate count '1')

section Joining

variable {count : Nat}

theorem isEntry_joining : Text.IsEntry (joining count) := by
  have ones : (List.replicate count '1').any Text.isSpace = false := by
    rw [List.any_eq_false]
    intro c held
    rw [List.eq_of_mem_replicate held]
    decide
  refine Text.isEntry_of_no_space (List.cons_ne_nil _ _) ?_
  simp only [joining, List.any_append, List.any_cons, List.any_nil, ones]
  rfl

theorem within_joining (few : count ≤ Decimal.digitLimit) : Decimal.Within (joining count) := by
  have ones : Decimal.Within (List.replicate count '1') :=
    Decimal.within_of_length_le (by rwa [List.length_replicate])
  have start : Decimal.Within ['a', '>'] := Decimal.within_of_length_le (by decide)
  exact start.append_cons rfl (ones.append_cons rfl ones)

theorem parse_joined (some : 0 < count) :
    Pattern.parse (joined count).text = .ok (.leaf (.relation (joined count))) := by
  refine (joined count).parse_text_relation ?_ ?_ (List.cons_ne_nil _ _) ?_
  · show Pattern.Unmarked ['a']
    decide
  · intro c held
    rw [joined, List.replicate_append_replicate] at held
    rw [List.eq_of_mem_replicate held]
    decide
  · obtain ⟨more, rfl⟩ := Nat.exists_eq_succ_of_ne_zero some.ne'
    exact List.cons_ne_nil _ _

theorem parse_joining (some : 0 < count) :
    Pattern.parse (joining count) =
      .ok (.alternation (joining count) [.leaf (.relation (joined count))]) := by
  let ones : Braces.Sequence := .plain (List.replicate count '1')
  have proper : (Braces.Sequence.grouped ['a', '>'] (.last ones) ones).Proper false := by
    refine Braces.Sequence.proper_grouped_iff.2 ⟨by decide, ?_, ?_⟩
    · refine Braces.Sequence.proper_plain_inside fun c held => ?_
      rw [List.eq_of_mem_replicate held]
      decide
    · exact Braces.Sequence.proper_plain_iff.2 (by simp [List.mem_replicate])
  have filled : ∀ choice ∈ (Braces.Choices.last ones).toList, choice.text ≠ [] := by
    intro choice held
    obtain rfl : choice = ones := List.mem_singleton.1 held
    simpa [ones] using some.ne'
  have read := Pattern.parse_text_of_group proper filled
  have whole : (Braces.Sequence.grouped ['a', '>'] (.last ones) ones).text = joining count := by
    rw [Braces.Sequence.text_grouped, Braces.Choices.text, Braces.Sequence.text_plain, joining]
  have part : (Braces.Sequence.around ['a', '>'] ones ones).text = (joined count).text := by
    rw [Braces.Sequence.text_around, Braces.Sequence.text_plain]
    simp [joined, Relation.text, Relation.bound, Operator.text]
  rw [whole, Braces.Choices.toList, mapM_cons_eq, part, parse_joined some] at read
  exact read

/-- The digits are too many only when they are joined. -/
theorem answer_joining (some : 0 < count) (many : Decimal.digitLimit < count + count) :
    answer (joining count) ['a', '-', '1'] = .error (.number .tooManyDigits) := by
  have beyond : ¬ Decimal.Within (joined count).version := by
    rw [joined, List.replicate_append_replicate]
    exact Decimal.not_within_replicate rfl many
  have named : PkgName.ofText? ['a', '-', '1'] = .some ⟨['a'], ['1'], by decide⟩ :=
    PkgName.ofText?_eq_some_iff.2 rfl
  have tried : Leaf.accepts (.relation (joined count)) ['a', '-', '1'] =
      .error (.number .tooManyDigits) := by
    have same : PkgName.base ⟨['a'], ['1'], by decide⟩ = (joined count).base := rfl
    rw [Leaf.accepts_relation, Matching.byVersion_of_eq named same, Relation.holds,
      Version.order_eq_error (Or.inr beyond)]
    rfl
  rw [Matcher.answer_of_parse (parse_joining some), Pattern.accepts, Pattern.firstMatch_eq_firstLeaf,
    Pattern.leaves, Pattern.leavesOfAll_eq_flatMap, List.flatMap_singleton, Pattern.leaves,
    Leaf.firstLeaf, tried]
  rfl

end Joining

/-- No line has a number that is too long, and yet the scan crashes. -/
theorem scan_crashes_on_joined_digits :
    (∀ line ∈ [joining 3000, ['a', '-', '1']], Text.IsEntry line ∧ Decimal.Within line) ∧
      (∃ read, Pattern.parse (joining 3000) = .ok read) ∧
      Listing.Holds (twoListings (joining 3000) ['a', '-', '1']) .silent ['n'] [['a', '-', '1']]
        .silent ∧
      Listing.Holds (twoListings (joining 3000) ['a', '-', '1']) .silent ['p'] [joining 3000]
        .silent ∧
      (run standard (.start (twoListings (joining 3000) ['a', '-', '1']) .silent)
        (scanLine ['p'] ['n'] false)).ending = .crashed (.matching (.number .tooManyDigits)) := by
  obtain ⟨namesHeld, patternsHeld⟩ :=
    holds_twoListings (.last (@isEntry_joining 3000)) (.last isEntry_one) .silent
  have read := @parse_joining 3000 (by decide)
  have stops : StopsAt [['a', '-', '1']] [joining 3000] [] (joining 3000) :=
    ⟨⟨[], rfl⟩, by simp⟩
  have fails : FailsOn [['a', '-', '1']] (joining 3000) [] ['a', '-', '1'] .tooManyDigits :=
    ⟨⟨_, read⟩, ⟨[], rfl⟩, by simp [Answered],
      (Matcher.run_accepts _ _ _).trans (answer_joining (by decide) (by decide))⟩
  obtain ⟨noted, -, ran⟩ := scan_of_untried plain_one_letter namesHeld patternsHeld stops fails
  refine ⟨?_, ⟨_, read⟩, namesHeld, patternsHeld, by rw [ran]⟩
  rw [List.forall_mem_cons, List.forall_mem_singleton]
  exact ⟨⟨isEntry_joining, within_joining (by decide)⟩, isEntry_one,
    Decimal.within_of_length_le (by decide)⟩

end Command

end Pkgsrc
