/-
# Pkgsrc.Proofs.Matcher.Ledger -- what a matcher keeps and what it parsed

A ledger lists the texts that a matcher keeps a pattern for and the texts that it parsed.  Looking
a text up enters it as parsed if none is kept for it, and as kept if it can be parsed
(`Ledger.look`).  A matcher that keeps patterns stays recorded when it looks a text up
(`records_parsed`); to try a candidate is to look up the pattern, unless the first characters
differ (`records_accepts`), and to find the best one is to try candidates (`records_best`).  What
is kept is known from the ledger, since a text stands for one pattern (`Records.kept?_eq_some_iff`,
`Records.kept_unique`).
-/
import Pkgsrc.Matcher.Step
import Pkgsrc.Proofs.Matcher.Rounds

namespace Pkgsrc

set_option autoImplicit false

/-- The text that is parsed, if this is what happened. -/
def Note.parsing? : Note → Option Text
  | .parsing pattern => some pattern
  | _ => none

/-- The texts that were parsed, the oldest one first. -/
def Matcher.parsings (matcher : Matcher) : List Text :=
  matcher.notes.toList.filterMap Note.parsing?

/-- The texts that patterns are kept for, the latest one first, and the texts that were parsed,
the oldest one first. -/
structure Ledger where
  held : List Text
  read : List Text

theorem Parsed.text_injective : Function.Injective Parsed.text := by
  rintro ⟨text, pattern, read⟩ ⟨_, other, readOther⟩ rfl
  cases read.symm.trans readOther
  rfl

namespace Ledger

def empty : Ledger :=
  ⟨[], []⟩

/-- Look a text up: parse it if it is not held, and hold it if it is well formed. -/
def look (ledger : Ledger) (text : Text) : Ledger :=
  if text ∈ ledger.held then ledger
  else
    match Pattern.parse text with
    | .ok _ => ⟨text :: ledger.held, ledger.read ++ [text]⟩
    | .error _ => ⟨ledger.held, ledger.read ++ [text]⟩

/-- The matcher keeps patterns for the held texts, and parsed those that were read. -/
structure Records (ledger : Ledger) (matcher : Matcher) : Prop where
  kept : ∃ cache, matcher.kept = some cache ∧ cache.entries.map Parsed.text = ledger.held
  parsings : matcher.parsings = ledger.read

/-! ## Lookups -/

section Look

variable {ledger : Ledger} {text other : Text}

theorem look_of_held (held : text ∈ ledger.held) : ledger.look text = ledger :=
  if_pos held

theorem look_of_ok {pattern : Pattern} (absent : text ∉ ledger.held)
    (read : Pattern.parse text = .ok pattern) :
    ledger.look text = ⟨text :: ledger.held, ledger.read ++ [text]⟩ := by
  rw [look, if_neg absent, read]

theorem look_of_error {fault : Malformed} (absent : text ∉ ledger.held)
    (failed : Pattern.parse text = .error fault) :
    ledger.look text = ⟨ledger.held, ledger.read ++ [text]⟩ := by
  rw [look, if_neg absent, failed]

theorem mem_held_look :
    other ∈ (ledger.look text).held ↔
      other ∈ ledger.held ∨ (other = text ∧ ∃ pattern, Pattern.parse text = .ok pattern) := by
  by_cases held : text ∈ ledger.held
  · rw [look_of_held held]
    constructor
    · exact Or.inl
    · rintro (before | ⟨rfl, -⟩)
      · exact before
      · exact held
  · cases parse : Pattern.parse text with
    | ok pattern =>
        rw [look_of_ok held parse]
        simp [or_comm]
    | error fault =>
        rw [look_of_error held parse]
        simp

theorem read_look :
    (ledger.look text).read = ledger.read ++ if text ∈ ledger.held then [] else [text] := by
  by_cases held : text ∈ ledger.held
  · rw [look_of_held held, if_pos held, List.append_nil]
  · rw [if_neg held]
    cases parse : Pattern.parse text with
    | ok pattern => rw [look_of_ok held parse]
    | error fault => rw [look_of_error held parse]

theorem mem_held_foldl_look {texts : List Text} :
    other ∈ (texts.foldl look ledger).held ↔
      other ∈ ledger.held ∨ (other ∈ texts ∧ ∃ pattern, Pattern.parse other = .ok pattern) := by
  induction texts generalizing ledger with
  | nil => simp
  | cons text texts ih =>
      rw [List.foldl_cons, ih, mem_held_look, List.mem_cons]
      constructor
      · rintro ((before | ⟨rfl, valid⟩) | ⟨later, valid⟩)
        · exact Or.inl before
        · exact Or.inr ⟨Or.inl rfl, valid⟩
        · exact Or.inr ⟨Or.inr later, valid⟩
      · rintro (before | ⟨rfl | later, valid⟩)
        · exact Or.inl (Or.inl before)
        · exact Or.inl (Or.inr ⟨rfl, valid⟩)
        · exact Or.inr ⟨later, valid⟩

/-- What cannot be parsed is not held, however often it is looked up. -/
theorem held_foldl_look_of_error {fault : Malformed} {texts : List Text}
    (failed : Pattern.parse text = .error fault) (same : ∀ looked ∈ texts, looked = text) :
    (texts.foldl look ledger).held = ledger.held := by
  induction texts generalizing ledger with
  | nil => rfl
  | cons looked texts ih =>
      obtain ⟨rfl, others⟩ := List.forall_mem_cons.1 same
      rw [List.foldl_cons, ih others]
      by_cases held : looked ∈ ledger.held
      · rw [look_of_held held]
      · rw [look_of_error held failed]

end Look

/-! ## What a recorded matcher keeps -/

namespace Records

variable {ledger : Ledger} {matcher : Matcher} {text : Text}

theorem exists_parse_of_held (recorded : ledger.Records matcher) (held : text ∈ ledger.held) :
    ∃ pattern, Pattern.parse text = .ok pattern := by
  obtain ⟨cache, -, texts⟩ := recorded.kept
  rw [← texts] at held
  obtain ⟨parsed, -, rfl⟩ := List.mem_map.1 held
  exact ⟨parsed.pattern, parsed.isParse⟩

theorem kept?_eq_some_iff (recorded : ledger.Records matcher) {pattern : Pattern} :
    matcher.kept? text = some pattern ↔
      text ∈ ledger.held ∧ Pattern.parse text = .ok pattern := by
  obtain ⟨cache, kept, texts⟩ := recorded.kept
  rw [Matcher.kept?, kept, ← texts]
  cases found : cache.find? text with
  | none =>
      have absent := Cache.find?_eq_none_iff.1 found
      simp [found, absent]
  | some known =>
      have parse := Cache.parse_of_find? found
      have present := Cache.mem_texts_of_find? found
      simp only [Option.bind_some, found, Option.map_some, Option.some.injEq, parse,
        Except.ok.injEq, present, true_and]

theorem isSome_kept?_iff (recorded : ledger.Records matcher) :
    (matcher.kept? text).isSome ↔ text ∈ ledger.held := by
  rw [Option.isSome_iff_exists]
  constructor
  · rintro ⟨pattern, kept⟩
    exact (recorded.kept?_eq_some_iff.1 kept).1
  · intro held
    obtain ⟨pattern, parse⟩ := recorded.exists_parse_of_held held
    exact ⟨pattern, recorded.kept?_eq_some_iff.2 ⟨held, parse⟩⟩

theorem size_eq_length (recorded : ledger.Records matcher) :
    matcher.size = ledger.held.length := by
  obtain ⟨cache, kept, texts⟩ := recorded.kept
  rw [Matcher.size, kept, ← texts, List.length_map]
  rfl

theorem nodup_held (recorded : ledger.Records matcher) : ledger.held.Nodup := by
  obtain ⟨cache, -, texts⟩ := recorded.kept
  exact texts ▸ cache.distinct

/-- A text stands for one pattern, so the held texts tell what is kept. -/
theorem kept_unique {later : Ledger} {next : Matcher} (recorded : ledger.Records matcher)
    (recordedNext : later.Records next) (same : later.held = ledger.held) :
    next.kept = matcher.kept := by
  obtain ⟨cache, kept, texts⟩ := recorded.kept
  obtain ⟨other, keptNext, textsNext⟩ := recordedNext.kept
  have entries : other.entries = cache.entries := by
    apply List.map_injective_iff.2 Parsed.text_injective
    rw [textsNext, same, texts]
  rw [kept, keptNext, Option.some.injEq]
  cases other
  cases cache
  cases entries
  rfl

end Records

end Ledger

/-! ## Runs -/

namespace Matcher

open Ledger

variable {ledger : Ledger} {matcher : Matcher}

theorem records_empty : Ledger.empty.Records (keeping .empty) :=
  ⟨⟨.empty, rfl, rfl⟩, rfl⟩

theorem records_clear (recorded : ledger.Records matcher) :
    Ledger.Records ⟨[], ledger.read⟩ matcher.clear := by
  obtain ⟨cache, kept, -⟩ := recorded.kept
  exact ⟨⟨.empty, by rw [clear, kept]; rfl, rfl⟩, recorded.parsings⟩

theorem parsings_note (matcher : Matcher) (what : Note) :
    parsings { matcher with notes := matcher.notes.push what } =
      matcher.parsings ++ what.parsing?.toList := by
  rw [parsings, Array.toList_push, List.filterMap_append]
  cases what <;> rfl

theorem records_mismatch (recorded : ledger.Records matcher) (pattern candidate : Text)
    (cause : Report) :
    ledger.Records
      { matcher with notes := matcher.notes.push (.mismatch pattern candidate cause) } := by
  refine ⟨recorded.kept, ?_⟩
  rw [parsings_note, recorded.parsings]
  exact List.append_nil _

theorem records_judge (recorded : ledger.Records matcher) (pattern candidate : Text)
    (result : Except Matching.Fault Bool) :
    ledger.Records ((judge pattern candidate result).run matcher).2 := by
  cases result with
  | ok held => exact recorded
  | error fault =>
      cases fault with
      | malformedName name => exact records_mismatch recorded pattern candidate _
      | notPattern value => exact recorded
      | number cause => exact recorded

theorem records_parseNew {cache : Cache} {text : Text} (recorded : ledger.Records matcher)
    (texts : cache.entries.map Parsed.text = ledger.held) (kept : matcher.kept = some cache)
    (absent : cache.find? text = none) :
    (ledger.look text).Records ((parseNew cache text absent).run matcher).2 := by
  have new : text ∉ ledger.held := texts ▸ Cache.find?_eq_none_iff.1 absent
  have noted := parsings_note matcher (.parsing text)
  rw [recorded.parsings] at noted
  unfold parseNew
  rw [run_note_bind]
  split
  · rename_i fault failed
    rw [look_of_error new failed]
    exact ⟨⟨cache, kept, texts⟩, noted⟩
  · rename_i pattern parse
    rw [look_of_ok new parse]
    exact ⟨⟨_, rfl, congrArg (text :: ·) texts⟩, noted⟩

theorem records_parsed (recorded : ledger.Records matcher) (text : Text) :
    (ledger.look text).Records ((parsed text).run matcher).2 := by
  obtain ⟨cache, kept, texts⟩ := recorded.kept
  unfold parsed
  rw [run_get_bind]
  split
  · rename_i nothing
    cases kept.symm.trans nothing
  · rename_i other isKept
    cases kept.symm.trans isKept
    split
    · rename_i known found
      rw [look_of_held (texts ▸ Cache.mem_texts_of_find? found)]
      exact recorded
    · rename_i found
      exact records_parseNew recorded texts kept found

theorem records_accepts (recorded : ledger.Records matcher) (pattern candidate : Text) :
    Ledger.Records (if mayMatch pattern candidate then ledger.look pattern else ledger)
      ((accepts pattern candidate).run matcher).2 := by
  unfold accepts
  cases compared : mayMatch pattern candidate with
  | false => exact recorded
  | true =>
      have looked := records_parsed recorded pattern
      change Ledger.Records (ledger.look pattern) (tryMatch pattern candidate matcher).2
      unfold tryMatch
      split
      · rename_i fault later ran
        rw [ran] at looked
        exact records_mismatch looked pattern candidate _
      · rename_i read later ran
        rw [ran] at looked
        exact records_judge looked pattern candidate (read.accepts candidate)

theorem records_best (recorded : ledger.Records matcher) (pattern : Text) (best : Option Text)
    (candidates : List Text) :
    Ledger.Records
      ((tried pattern best candidates).foldl
        (fun ledger candidate =>
          if mayMatch pattern candidate then ledger.look pattern else ledger) ledger)
      ((bestFrom pattern best candidates).run matcher).2 := by
  rw [matcher_after_bestFrom]
  induction tried pattern best candidates generalizing ledger matcher with
  | nil => exact recorded
  | cons candidate others ih => exact ih (records_accepts recorded pattern candidate)

end Matcher

end Pkgsrc
