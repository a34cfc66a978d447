/-
# Pkgsrc.Proofs.Command.Matches -- the lines for the matches and for the best of them

The lines `match` and `best` take a pattern and names (`AsksFor`), and parse the pattern first.
`match` tries the names on it one after the other and prints those that it accepts, up to the first
one that it cannot be tried on (`run_printAccepted_append`).  `best` asks a matcher, to which a
malformed name is one that does not match; it makes a note of it and goes on
(`Matcher.matcher_after_best`).  So the names that both of them accept are the same
(`Matcher.accepted_eq_matched`), and the best of the names is the best of the matches
(`Matcher.exists_best`).

The one failure that ends both of them is a number that is too long, where braces join digits.
-/
import Pkgsrc.Proofs.Command.Scan

namespace Pkgsrc

set_option autoImplicit false

namespace Pattern

/-! ## Names that match -/

/-- The names that a pattern accepts. -/
def matched (pattern : Pattern) (names : List Text) : List Text :=
  names.filter fun name =>
    match pattern.accepts name with
    | .ok held => held
    | .error _ => false

/-- A pattern can be tried on all of these names. -/
def Untroubled (pattern : Pattern) (names : List Text) : Prop :=
  ∀ name ∈ names, ∃ held, pattern.accepts name = .ok held

variable {pattern : Pattern} {name : Text}

theorem matched_cons_of_ok {held : Bool} (answered : pattern.accepts name = .ok held)
    (names : List Text) :
    pattern.matched (name :: names) = (if held then [name] else []) ++ pattern.matched names := by
  rw [matched, List.filter_cons, answered, matched]
  cases held <;> rfl

theorem accepts_of_mem_matched {names : List Text} (held : name ∈ pattern.matched names) :
    name ∈ names ∧ pattern.accepts name = .ok true := by
  rw [matched, List.mem_filter] at held
  obtain ⟨inside, accepted⟩ := held
  refine ⟨inside, ?_⟩
  split at accepted
  · rename_i answer answered
    rw [answered, accepted]
  · cases accepted

/-- The first name on which a pattern cannot be tried. -/
structure StuckAt (pattern : Pattern) (names tried : List Text) (name : Text) : Prop where
  shape : ∃ untried, names = tried ++ name :: untried
  untroubled : pattern.Untroubled tried

theorem untroubled_or_stuckAt {raw : Text} (parsed : parse raw = .ok pattern) (names : List Text) :
    pattern.Untroubled names ∨
      ∃ tried name, pattern.StuckAt names tried name ∧
        (pattern.accepts name = .error (.malformedName name) ∨
          ∃ cause, pattern.accepts name = .error (.number cause)) := by
  rcases forall_or_exists_first (fun name => ∃ held, pattern.accepts name = .ok held) names with
    untroubled | ⟨tried, name, untried, shape, untroubled, stuck⟩
  · exact Or.inl untroubled
  · refine Or.inr ⟨tried, name, ⟨⟨untried, shape⟩, untroubled⟩, ?_⟩
    cases answered : pattern.accepts name with
    | ok held => exact absurd ⟨held, answered⟩ stuck
    | error fault =>
        rcases fault_of_parse parsed answered with rfl | ⟨cause, rfl⟩
        · exact Or.inl rfl
        · exact Or.inr ⟨cause, rfl⟩

end Pattern

namespace Matcher

/-! ## The best of the matches -/

variable {raw : Text} {pattern : Pattern} {names : List Text}

theorem accepted_eq_matched (parsed : Pattern.parse raw = .ok pattern) (names : List Text) :
    accepted raw names = pattern.matched names := by
  apply List.filter_congr
  intro name _
  rw [run_accepts, answer_of_parse parsed]
  cases pattern.accepts name with
  | ok held => rfl
  | error fault => cases fault <;> rfl

theorem within_versionOf {name : Text} (short : Decimal.Within name) :
    Decimal.Within (versionOf name) := by
  unfold versionOf
  cases cut : name.splitLast? '-' with
  | none => exact Decimal.within_of_length_le (Nat.zero_le _)
  | some parts =>
      obtain ⟨base, version⟩ := parts
      have whole := Text.append_of_splitLast? cut
      exact short.of_infix ⟨base ++ ['-'], [], by simp [← whole]⟩

/-- Where all names can be tried and no number is too long, there is a best name unless none
matches, and it is the best of the matches. -/
theorem exists_best (parsed : Pattern.parse raw = .ok pattern)
    (answered : ∀ name ∈ names, ∃ held, answer raw name = .ok held)
    (short : ∀ name ∈ names, Decimal.Within name) :
    ∃ best, names.foldlM (round raw) none = .ok best ∧
      (pattern.matched names).foldlM (round raw) none = .ok best ∧
      (best = none ↔ pattern.matched names = []) := by
  have matchedAnswered : ∀ name ∈ pattern.matched names, answer raw name = .ok true := by
    intro name held
    rw [answer_of_parse parsed, (Pattern.accepts_of_mem_matched held).2]
    rfl
  have again : accepted raw (pattern.matched names) = pattern.matched names := by
    rw [accepted, List.filter_eq_self]
    intro name held
    rw [run_accepts, matchedAnswered name held]
  rw [foldlM_round answered, foldlM_round fun name held => ⟨true, matchedAnswered name held⟩, again,
    accepted_eq_matched parsed]
  by_cases empty : pattern.matched names = []
  · rw [empty]
    exact ⟨none, rfl, rfl, by simp⟩
  · have within : ∀ name ∈ pattern.matched names, Decimal.Within (versionOf name) :=
      fun name held => within_versionOf (short name (Pattern.accepts_of_mem_matched held).1)
    obtain ⟨-, best, -, found, -⟩ := exists_prevailing within empty
    exact ⟨some best, found, found, by simp [empty]⟩

/-- A note that a name does not match, for a failure. -/
def IsRefusal (raw : Text) (names : List Text) (note : Note) : Prop :=
  ∃ name ∈ names, ∃ cause, note = .mismatch raw name cause

theorem run_parsed_forgetful (raw : Text) (notes : Journal) :
    (parsed raw).run ⟨none, notes⟩ = (Pattern.parse raw, ⟨none, notes⟩) :=
  rfl

/-- A matcher that keeps no patterns makes a note of a name that it refuses for a failure, and is
else as it was. -/
theorem matcher_after_accepts (raw name : Text) (notes : Journal) :
    ∃ refused : List Note, (∀ note ∈ refused, ∃ cause, note = .mismatch raw name cause) ∧
      ((accepts raw name).run ⟨none, notes⟩).2 = ⟨none, notes ++ refused.toArray⟩ := by
  have unchanged : (⟨none, notes⟩ : Matcher) = ⟨none, notes ++ ([] : List Note).toArray⟩ := by simp
  have noted : ∀ cause, (⟨none, notes.push (.mismatch raw name cause)⟩ : Matcher) =
      ⟨none, notes ++ [Note.mismatch raw name cause].toArray⟩ := by simp
  unfold accepts
  cases mayMatch raw name with
  | false => exact ⟨[], by simp, unchanged⟩
  | true =>
      have read := run_parsed_forgetful raw notes
      show ∃ refused : List Note, _ ∧ (tryMatch raw name ⟨none, notes⟩).2 = _
      rw [tryMatch, read]
      cases Pattern.parse raw with
      | error fault => exact ⟨[_], by simp, noted (.ofMalformed fault)⟩
      | ok pattern =>
          dsimp only
          cases pattern.accepts name with
          | ok held => exact ⟨[], by simp, unchanged⟩
          | error fault =>
              cases fault with
              | malformedName bad => exact ⟨[_], by simp, noted (.ofMalformedName bad)⟩
              | notPattern value => exact ⟨[], by simp, unchanged⟩
              | number cause => exact ⟨[], by simp, unchanged⟩

/-- So does the search for the best of some names. -/
theorem matcher_after_best (raw : Text) (names : List Text) (notes : Journal) :
    ∃ refused : List Note, (∀ note ∈ refused, IsRefusal raw names note) ∧
      ((best? raw names).run ⟨none, notes⟩).2 = ⟨none, notes ++ refused.toArray⟩ := by
  rw [best?]
  -- Which name is the best so far says where the search ends, but not what it notes.
  generalize none = best
  induction names generalizing best notes with
  | nil =>
      refine ⟨[], by simp, ?_⟩
      show (⟨none, notes⟩ : Matcher) = _
      simp
  | cons name others ih =>
      obtain ⟨first, isFirst, after⟩ := matcher_after_accepts raw name notes
      have firstRefused : ∀ note ∈ first, IsRefusal raw (name :: others) note := fun note held =>
        ⟨name, List.mem_cons_self, isFirst note held⟩
      rw [run_bestFrom_cons, after]
      cases round raw best name with
      | error fault => exact ⟨first, firstRefused, rfl⟩
      | ok next =>
          obtain ⟨later, isLater, afterAll⟩ := ih (notes ++ first.toArray) next
          refine ⟨first ++ later, fun note held => ?_, ?_⟩
          · rcases List.mem_append.1 held with early | late
            · exact firstRefused note early
            · obtain ⟨other, inside, cause⟩ := isLater note late
              exact ⟨other, List.mem_cons_of_mem name inside, cause⟩
          · dsimp only
            rw [afterAll]
            simp

end Matcher

namespace Command

open Matcher (answer aboveZero)

variable {files : Text → Option Bytes} {web : Web} {words : List Text} {pattern : Text}
  {read : Pattern} {names tried : List Text} {name : Text}

/-! ## What the commands do -/

/-- Names that can be tried are tried one after the other. -/
theorem run_printAccepted_append (untroubled : read.Untroubled tried) (rest : List Text)
    (session : Session) :
    (printAccepted read (tried ++ rest)).run session =
      (printAccepted read rest).run (session.further (read.matched tried) session.notes) := by
  induction tried generalizing session with
  | nil =>
      rw [Pattern.matched, List.filter_nil, Session.further_nil]
      rfl
  | cons name others ih =>
      obtain ⟨⟨held, answered⟩, later⟩ := List.forall_mem_cons.1 untroubled
      rw [List.cons_append, printAccepted, run_bind, answered, Act.run_settle,
        Pattern.matched_cons_of_ok answered]
      cases held with
      | false => exact ih later session
      | true =>
          show (Act.print name >>= fun _ => printAccepted read (others ++ rest)).run session = _
          rw [run_bind, Act.run_print]
          dsimp only
          rw [ih later, Session.further_further]
          rfl

/-- A pattern is parsed before anything else is done with it. -/
theorem run_settle_parse (parsed : Pattern.parse pattern = .ok read) (next : Pattern → Act Unit)
    (session : Session) :
    (Act.settle .malformed (Pattern.parse pattern) >>= next).run session =
      (next read).run session := by
  rw [run_bind, parsed, Act.run_settle]
  rfl

theorem run_settle_parse_of_malformed {fault : Malformed}
    (failed : Pattern.parse pattern = .error fault) (next : Pattern → Act Unit)
    (session : Session) :
    (Act.settle .malformed (Pattern.parse pattern) >>= next).run session =
      (.error (.malformed fault), session) := by
  rw [run_bind, failed, Act.run_settle]
  rfl

theorem run_printMatches (parsed : Pattern.parse pattern = .ok read)
    (untroubled : read.Untroubled names) (session : Session) :
    (printMatches pattern names).run session =
      (.ok (), session.further (read.matched names) session.notes) := by
  rw [printMatches, run_settle_parse parsed, ← List.append_nil names,
    run_printAccepted_append untroubled, List.append_nil]
  rfl

theorem run_printMatches_of_stuck {fault : Matching.Fault}
    (parsed : Pattern.parse pattern = .ok read) (stuck : read.StuckAt names tried name)
    (failed : read.accepts name = .error fault) (session : Session) :
    (printMatches pattern names).run session =
      (.error (.matching fault), session.further (read.matched tried) session.notes) := by
  obtain ⟨⟨untried, rfl⟩, untroubled⟩ := stuck
  rw [printMatches, run_settle_parse parsed, run_printAccepted_append untroubled, printAccepted,
    run_bind, failed, Act.run_settle]
  rfl

/-- What is noted of the best name, or of there being none. -/
def bestNotes (pattern : Text) (best : Option Text) : List Note :=
  if best = none then [.nothingMatches pattern] else []

theorem run_printBest {best : Option Text} {session : Session} {notes : Journal}
    (parsed : Pattern.parse pattern = .ok read)
    (found : (Matcher.best? pattern names).run ⟨none, session.notes⟩ = (.ok best, ⟨none, notes⟩)) :
    (printBest pattern names).run session =
      (.ok (), session.further best.toList (notes ++ (bestNotes pattern best).toArray)) := by
  rw [printBest, run_settle_parse parsed, run_bind, Act.run_ask, found]
  cases best with
  | none =>
      show (Act.note _).run _ = _
      rw [Act.run_note, Session.further_further]
      simp [bestNotes]
  | some best =>
      show (Act.print _).run _ = _
      rw [Act.run_print, Session.further_further]
      simp [bestNotes]

theorem run_printBest_of_error {fault : Matching.Fault} {session : Session} {notes : Journal}
    (parsed : Pattern.parse pattern = .ok read)
    (failed : (Matcher.best? pattern names).run ⟨none, session.notes⟩ =
      (.error fault, ⟨none, notes⟩)) :
    (printBest pattern names).run session = (.error (.matching fault), session.further [] notes) := by
  rw [printBest, run_settle_parse parsed, run_bind, Act.run_ask, failed]
  rfl

/-! ## The lines -/

/-- The parameters for a pattern and some names. -/
def patternAndNames : List Parameter :=
  [⟨"pattern".toList, .one⟩, ⟨"pkgnames".toList, .several⟩]

/-- The words behind a command are taken for this pattern and these names. -/
def AsksFor (words : List Text) (pattern : Text) (names : List Text) : Prop :=
  ∃ items, Words.read words = .plain items ∧
    Arguments.ofItems? patternAndNames items =
      some [("pattern".toList, .one pattern), ("pkgnames".toList, .many names)]

theorem cut_map_operand (texts : List Text) :
    Item.cut texts.length (texts.map .operand) = (texts.map .operand, []) := by
  induction texts with
  | nil => rfl
  | cons text others ih => rw [List.map_cons, List.length_cons, Item.cut, ih]

theorem countP_isOperand (texts : List Text) :
    (texts.map Item.operand).countP Item.isOperand = texts.length := by
  have all : ∀ item ∈ texts.map Item.operand, item.isOperand = true := by
    simp [Item.isOperand]
  rw [List.countP_eq_length.2 all, List.length_map]

theorem share_several (given : Nat) : share .several (needed []) given = given :=
  Nat.sub_zero given

/-- One greedy parameter takes all operands. -/
theorem slices_several (name first : Text) (others : List Text) :
    slices [⟨name, .several⟩] ((first :: others).map .operand) =
      some [(⟨name, .several⟩, (first :: others).map .operand)] := by
  have enough : Arity.several.least ≤ (first :: others).length ∧
      (first :: others).length ≤ (first :: others).length :=
    ⟨Nat.succ_pos _, Nat.le_refl _⟩
  simp only [slices, countP_isOperand, share_several, cut_map_operand, if_pos enough,
    Option.map_some]

theorem erase_mark {texts : List Text} (noMark : markText ∉ texts) :
    ((texts.map Item.operand).map Item.text).erase markText = texts := by
  have same : (texts.map Item.operand).map Item.text = texts := by
    rw [List.map_map]
    exact List.map_id texts
  rw [same, List.erase_of_not_mem noMark]

/-- Operands are taken for a pattern and the names behind it. -/
theorem asksFor_of_plain {first : Text} {others : List Text}
    (plain : Words.read (pattern :: first :: others) =
      .plain ((pattern :: first :: others).map .operand)) :
    AsksFor (pattern :: first :: others) pattern (first :: others) := by
  refine ⟨_, plain, ?_⟩
  have noMark := Words.mark_not_mem_of_plain plain
  rw [List.mem_cons, not_or] at noMark
  obtain ⟨notPattern, notNames⟩ := noMark
  have cut : Item.cut (share .one (needed [⟨"pkgnames".toList, .several⟩])
        (pattern :: first :: others).length) ((pattern :: first :: others).map .operand) =
      ([.operand pattern], (first :: others).map .operand) := rfl
  have enough : Arity.one.least ≤ share .one (needed [⟨"pkgnames".toList, .several⟩])
        (pattern :: first :: others).length ∧
      share .one (needed [⟨"pkgnames".toList, .several⟩]) (pattern :: first :: others).length ≤
        (pattern :: first :: others).length :=
    ⟨Nat.le_refl 1, Nat.succ_pos _⟩
  have sliced : slices patternAndNames ((pattern :: first :: others).map .operand) =
      some [(⟨"pattern".toList, .one⟩, [.operand pattern]),
        (⟨"pkgnames".toList, .several⟩, (first :: others).map .operand)] := by
    rw [patternAndNames, slices]
    simp only [countP_isOperand, cut, slices_several, if_pos enough, Option.map_some]
  have one : Argument.ofSlice .one [.operand pattern] = .one pattern := by
    have kept : ([Item.operand pattern].map Item.text).erase markText = [pattern] :=
      @erase_mark [pattern] (by simpa using notPattern)
    simp only [Argument.ofSlice, kept]
  have many : Argument.ofSlice .several ((first :: others).map .operand) =
      .many (first :: others) := by
    simp only [Argument.ofSlice, erase_mark notNames]
  rw [Arguments.ofItems?, sliced]
  show some [(_, Argument.ofSlice .one [.operand pattern]),
    (_, Argument.ofSlice .several ((first :: others).map .operand))] = _
  rw [one, many]

/-- What a line comes to, whether it debugs or not: how it ends, what it prints, and its notes
behind those that were there. -/
def ComesTo (files : Text → Option Bytes) (web : Web) (line : List Text) (ending : Ending)
    (printed : List Text) (noted : Bool → List Note) : Prop :=
  ∀ debugging, run standard (.start files web) (Request.flagged debugging line) =
    ⟨ending, printed, (web.notes.toList ++ noted debugging).filter (Note.isShown debugging),
      web.requested⟩

/-- The line for the matches. -/
def matchLine (words : List Text) : List Text :=
  "match".toList :: words

/-- The line for the best of them. -/
def bestLine (words : List Text) : List Text :=
  "best".toList :: words

theorem run_matchLine (asked : AsksFor words pattern names) (debugging : Bool)
    (session : Session) :
    run standard session (Request.flagged debugging (matchLine words)) =
      match (printMatches pattern names).run session with
      | (result, final) => conclude debugging final result := by
  obtain ⟨items, plain, taken⟩ := asked
  have found : find? standard "match".toList = some standard[0] := rfl
  rw [run, matchLine, Request.read_of_plain plain (by decide) (by decide) found taken]
  rfl

theorem run_bestLine (asked : AsksFor words pattern names) (debugging : Bool)
    (session : Session) :
    run standard session (Request.flagged debugging (bestLine words)) =
      match (printBest pattern names).run session with
      | (result, final) => conclude debugging final result := by
  obtain ⟨items, plain, taken⟩ := asked
  have found : find? standard "best".toList = some standard[1] := rfl
  rw [run, bestLine, Request.read_of_plain plain (by decide) (by decide) found taken]
  rfl

/-- The line for the best of some names is done.  It prints the best of the matches, or notes that
there are none; before that, it notes the names that it refuses for a failure. -/
def BestIsDone (files : Text → Option Bytes) (web : Web) (words : List Text) (pattern : Text)
    (names matched : List Text) : Prop :=
  ∃ best refused,
    ((Matcher.best? pattern matched).run .forgetful).1 = .ok best ∧ (best = none ↔ matched = []) ∧
      (∀ note ∈ refused, Matcher.IsRefusal pattern names note) ∧
      ComesTo files web (bestLine words) .done best.toList
        fun _ => refused ++ bestNotes pattern best

section Lines

variable (asked : AsksFor words pattern names) (files : Text → Option Bytes) (web : Web)
include asked

theorem lines_of_malformed {fault : Malformed} (failed : Pattern.parse pattern = .error fault) :
    ComesTo files web (matchLine words) .failed []
        (fun debugging => [.failed (.ofMalformed fault) debugging]) ∧
      ComesTo files web (bestLine words) .failed []
        fun debugging => [.failed (.ofMalformed fault) debugging] := by
  have unchanged : Session.start files web = (Session.start files web).further [] web.notes := by
    rw [Session.further_nil]
    rfl
  constructor
  · intro debugging
    rw [run_matchLine asked, printMatches, run_settle_parse_of_malformed failed, unchanged]
    exact conclude_further_reported debugging _ [] _ rfl
  · intro debugging
    rw [run_bestLine asked, printBest, run_settle_parse_of_malformed failed, unchanged]
    exact conclude_further_reported debugging _ [] _ rfl

theorem matchLine_of_untroubled (parsed : Pattern.parse pattern = .ok read)
    (untroubled : read.Untroubled names) :
    ComesTo files web (matchLine words) .done (read.matched names) fun _ => [] := by
  intro debugging
  rw [run_matchLine asked, run_printMatches parsed untroubled, List.append_nil]
  exact conclude_further_ok debugging _ _ _

theorem matchLine_of_malformedName (parsed : Pattern.parse pattern = .ok read)
    (stuck : read.StuckAt names tried name)
    (failed : read.accepts name = .error (.malformedName name)) :
    ComesTo files web (matchLine words) .failed (read.matched tried)
      fun debugging => [.failed (.ofMalformedName name) debugging] := by
  intro debugging
  rw [run_matchLine asked, run_printMatches_of_stuck parsed stuck failed]
  exact conclude_further_reported debugging _ _ _ rfl

theorem matchLine_of_number {cause : NumberFault} (parsed : Pattern.parse pattern = .ok read)
    (stuck : read.StuckAt names tried name)
    (failed : read.accepts name = .error (.number cause)) :
    ComesTo files web (matchLine words) (.crashed (.matching (.number cause)))
      (read.matched tried) fun _ => [] := by
  intro debugging
  rw [run_matchLine asked, run_printMatches_of_stuck parsed stuck failed, List.append_nil]
  exact conclude_further_crashed debugging _ _ _ rfl

theorem bestLine_of_answered (parsed : Pattern.parse pattern = .ok read)
    (answered : Answered names pattern) (short : ∀ name ∈ names, Decimal.Within name) :
    BestIsDone files web words pattern names (read.matched names) := by
  obtain ⟨best, found, again, nothing⟩ := Matcher.exists_best parsed (answered_iff.1 answered) short
  obtain ⟨refused, areRefusals, after⟩ := Matcher.matcher_after_best pattern names web.notes
  have ran : (Matcher.best? pattern names).run ⟨none, (Session.start files web).notes⟩ =
      (.ok best, ⟨none, web.notes ++ refused.toArray⟩) :=
    Prod.ext ((Matcher.run_best pattern names _).trans found) after
  refine ⟨best, refused, (Matcher.run_best _ _ _).trans again, nothing, areRefusals, ?_⟩
  intro debugging
  rw [run_bestLine asked, run_printBest parsed ran, ← List.append_assoc, ← Array.toList_append,
    ← Array.toList_append]
  exact conclude_further_ok debugging _ _ _

theorem bestLine_of_not_answered (parsed : Pattern.parse pattern = .ok read)
    (unanswered : ¬ Answered names pattern) :
    ∃ refused, (∀ note ∈ refused, Matcher.IsRefusal pattern names note) ∧
      ComesTo files web (bestLine words) (.crashed (.matching (.number .tooManyDigits))) []
        fun _ => refused := by
  obtain ⟨refused, areRefusals, after⟩ := Matcher.matcher_after_best pattern names web.notes
  refine ⟨refused, areRefusals, ?_⟩
  have failed : names.foldlM (Matcher.round pattern) none = .error (.number .tooManyDigits) := by
    rcases answered_or_failsOn parsed names with answered | ⟨tried, name, cause, fails⟩
    · exact absurd answered unanswered
    · obtain ⟨untried, rfl⟩ := fails.shape
      have stuck : answer pattern name = .error (.number cause) :=
        (Matcher.run_accepts _ _ _).symm.trans fails.failed
      exact Matcher.foldlM_round_of_error (by simp) stuck none
  have ran : (Matcher.best? pattern names).run ⟨none, (Session.start files web).notes⟩ =
      (.error (.number .tooManyDigits), ⟨none, web.notes ++ refused.toArray⟩) :=
    Prod.ext ((Matcher.run_best pattern names _).trans failed) after
  intro debugging
  rw [run_bestLine asked, run_printBest_of_error parsed ran]
  have crashed := conclude_further_crashed debugging (.start files web) []
    (web.notes ++ refused.toArray) (show Failure.report? (.matching (.number .tooManyDigits)) = none
      from rfl)
  rwa [Array.toList_append] at crashed

end Lines

/-! ## All cases -/

theorem answered_of_untroubled (parsed : Pattern.parse pattern = .ok read)
    (untroubled : read.Untroubled names) : Answered names pattern := by
  refine answered_iff.2 fun name inside => ?_
  obtain ⟨held, tried⟩ := untroubled name inside
  exact ⟨held, by rw [Matcher.answer_of_parse parsed, tried]; rfl⟩

theorem accepts_ne_number (parsed : Pattern.parse pattern = .ok read)
    (answered : Answered names pattern) (inside : name ∈ names) (cause : NumberFault) :
    read.accepts name ≠ .error (.number cause) := by
  intro tried
  obtain ⟨held, found⟩ := answered_iff.1 answered name inside
  rw [Matcher.answer_of_parse parsed, tried] at found
  cases found

/-- Where no answer comes of a number, it is the pattern that cannot be tried. -/
theorem accepts_of_answer_eq_number {cause : NumberFault}
    (parsed : Pattern.parse pattern = .ok read)
    (failed : answer pattern name = .error (.number cause)) :
    read.accepts name = .error (.number cause) := by
  rw [Matcher.answer_of_parse parsed] at failed
  cases tried : read.accepts name with
  | ok held =>
      rw [tried] at failed
      cases failed
  | error fault =>
      rw [tried] at failed
      cases fault with
      | malformedName bad => cases failed
      | notPattern value => cases failed
      | number other =>
          cases failed
          rfl

/-- **One line prints the matches, the other one the best of them.**  A malformed pattern makes both
fail, and nothing is printed.  With any other pattern, `match` prints the names that it accepts: all
of them if it can be tried on every name, and else those before the first one on which it cannot be
tried; a malformed name makes it fail then, and a number that is too long crashes it.  Where it is
done, `best` is done as well, and prints the best of the names that `match` printed.  It is done
unless a number is too long, whatever names are malformed, and else it crashes.  No number is too
long if the texts that the pattern expands to have none that is. -/
theorem best_is_best_of_matches (asked : AsksFor words pattern names)
    (short : ∀ name ∈ names, Decimal.Within name) (files : Text → Option Bytes) (web : Web) :
    (∀ fault, Pattern.parse pattern = .error fault →
      ComesTo files web (matchLine words) .failed []
          (fun debugging => [.failed (.ofMalformed fault) debugging]) ∧
        ComesTo files web (bestLine words) .failed []
          fun debugging => [.failed (.ofMalformed fault) debugging]) ∧
    ∀ read, Pattern.parse pattern = .ok read →
      (read.Untroubled names →
        ComesTo files web (matchLine words) .done (read.matched names) (fun _ => []) ∧
        BestIsDone files web words pattern names (read.matched names)) ∧
      (∀ tried name, read.StuckAt names tried name →
        read.accepts name = .error (.malformedName name) →
        ComesTo files web (matchLine words) .failed (read.matched tried)
          fun debugging => [.failed (.ofMalformedName name) debugging]) ∧
      (∀ tried name cause, read.StuckAt names tried name →
        read.accepts name = .error (.number cause) →
        ComesTo files web (matchLine words) (.crashed (.matching (.number cause)))
          (read.matched tried) fun _ => []) ∧
      (read.Untroubled names ∨ ∃ tried name, read.StuckAt names tried name ∧
        (read.accepts name = .error (.malformedName name) ∨
          ∃ cause, read.accepts name = .error (.number cause))) ∧
      (Answered names pattern →
        BestIsDone files web words pattern names (read.matched names) ∧
        ∀ name ∈ names, ∀ cause, read.accepts name ≠ .error (.number cause)) ∧
      (¬ Answered names pattern →
        ∃ refused, (∀ note ∈ refused, Matcher.IsRefusal pattern names note) ∧
          ComesTo files web (bestLine words) (.crashed (.matching (.number .tooManyDigits))) []
            fun _ => refused) ∧
      (∀ tree : Braces.Sequence, tree.Reads pattern →
        (∀ text ∈ tree.expand, Decimal.Within text) → Answered names pattern) := by
  refine ⟨fun fault => lines_of_malformed asked files web, fun read parsed =>
    ⟨?_, ?_, ?_, Pattern.untroubled_or_stuckAt parsed names, ?_, ?_, ?_⟩⟩
  · intro untroubled
    have answered := answered_of_untroubled parsed untroubled
    exact ⟨matchLine_of_untroubled asked files web parsed untroubled,
      bestLine_of_answered asked files web parsed answered short⟩
  · intro tried name stuck failed
    exact matchLine_of_malformedName asked files web parsed stuck failed
  · intro tried name cause stuck failed
    exact matchLine_of_number asked files web parsed stuck failed
  · intro answered
    exact ⟨bestLine_of_answered asked files web parsed answered short,
      fun name inside => accepts_ne_number parsed answered inside⟩
  · intro unanswered
    exact bestLine_of_not_answered asked files web parsed unanswered
  · intro tree reads shortTexts
    exact answered_iff.2 fun name inside =>
      Matcher.exists_answer_of_reads reads parsed (short name inside) shortTexts

/-- `match` fails on the name `a`, and `best` passes over it. -/
theorem lines_of_name_without_version :
    ComesTo (fun _ => none) .silent
        (matchLine [aboveZero, ['a', '-', '1'], ['a'], ['a', '-', '2']]) .failed [['a', '-', '1']]
        (fun debugging => [.failed (.ofMalformedName ['a']) debugging]) ∧
      BestIsDone (fun _ => none) .silent [aboveZero, ['a', '-', '1'], ['a'], ['a', '-', '2']]
        aboveZero [['a', '-', '1'], ['a'], ['a', '-', '2']] [['a', '-', '1'], ['a', '-', '2']] := by
  have asked : AsksFor [aboveZero, ['a', '-', '1'], ['a'], ['a', '-', '2']] aboveZero
      [['a', '-', '1'], ['a'], ['a', '-', '2']] := asksFor_of_plain rfl
  have short : ∀ name ∈ [['a', '-', '1'], ['a'], ['a', '-', '2']], Decimal.Within name := by
    intro name inside
    apply Decimal.within_of_length_le
    revert name
    decide
  let read : Pattern := .leaf (.relation ⟨['a'], .gt, ['0']⟩)
  have parsed : Pattern.parse aboveZero = .ok read := by
    rw [aboveZero, Pattern.parse_of_no_braces (by decide)]
    rfl
  have first : read.accepts ['a', '-', '1'] = .ok true := rfl
  have second : read.accepts ['a'] = .error (.malformedName ['a']) := rfl
  have stuck : read.StuckAt [['a', '-', '1'], ['a'], ['a', '-', '2']] [['a', '-', '1']] ['a'] :=
    ⟨⟨[['a', '-', '2']], rfl⟩, by simp [Pattern.Untroubled, first]⟩
  have answered : Answered [['a', '-', '1'], ['a'], ['a', '-', '2']] aboveZero := by
    have one : answer aboveZero ['a', '-', '1'] = .ok true := Matcher.answer_aboveZero _
    have bare : answer aboveZero ['a'] = .ok false := Matcher.answer_aboveZero _
    have two : answer aboveZero ['a', '-', '2'] = .ok true := Matcher.answer_aboveZero _
    exact answered_iff.2 (by simp [one, bare, two])
  obtain ⟨-, ofRead⟩ := best_is_best_of_matches asked short (fun _ => none) .silent
  obtain ⟨-, failing, -, -, passing, -, -⟩ := ofRead read parsed
  exact ⟨failing _ _ stuck second, (passing answered).1⟩

/-- No argument has a number that is too long, and yet both lines crash. -/
theorem lines_crash_on_joined_digits :
    AsksFor [joining 3000, ['a', '-', '1']] (joining 3000) [['a', '-', '1']] ∧
      (∀ word ∈ [joining 3000, ['a', '-', '1']], Decimal.Within word) ∧
      (∃ read, Pattern.parse (joining 3000) = .ok read) ∧
      (run standard (.start (fun _ => none) .silent)
        (matchLine [joining 3000, ['a', '-', '1']])).ending =
          .crashed (.matching (.number .tooManyDigits)) ∧
      (run standard (.start (fun _ => none) .silent)
        (bestLine [joining 3000, ['a', '-', '1']])).ending =
          .crashed (.matching (.number .tooManyDigits)) := by
  obtain ⟨read, parsed⟩ : ∃ read, Pattern.parse (joining 3000) = .ok read :=
    ⟨_, parse_joining (by decide)⟩
  have failed : answer (joining 3000) ['a', '-', '1'] = .error (.number .tooManyDigits) :=
    answer_joining (by decide) (by decide)
  have asked : AsksFor [joining 3000, ['a', '-', '1']] (joining 3000) [['a', '-', '1']] :=
    asksFor_of_plain rfl
  have unanswered : ¬ Answered [['a', '-', '1']] (joining 3000) := by
    intro answered
    obtain ⟨held, found⟩ := answered_iff.1 answered _ (List.mem_singleton_self _)
    cases failed.symm.trans found
  refine ⟨asked, ?_, ⟨read, parsed⟩, ?_, ?_⟩
  · rw [List.forall_mem_cons, List.forall_mem_singleton]
    exact ⟨within_joining (by decide), Decimal.within_of_length_le (by decide)⟩
  · have stuck : read.StuckAt [['a', '-', '1']] [] ['a', '-', '1'] :=
      ⟨⟨[], rfl⟩, by simp [Pattern.Untroubled]⟩
    have ran := matchLine_of_number asked (fun _ => none) .silent parsed stuck
      (accepts_of_answer_eq_number parsed failed)
    exact congrArg Outcome.ending (ran false)
  · obtain ⟨refused, -, ran⟩ :=
      bestLine_of_not_answered asked (fun _ => none) .silent parsed unanswered
    exact congrArg Outcome.ending (ran false)

end Command

end Pkgsrc
