/-
# Pkgsrc.Proofs.Matcher.Answer -- what a matcher answers

The answer of a matcher for a pattern and a candidate is what parsing and matching give, where
neither a malformed pattern nor a malformed candidate is a failure (`answer`).  It depends on
nothing else: not on the patterns that the matcher keeps (`run_parsed`), and not on the
comparison of first characters, which only refuses what is not accepted anyway (`run_accepts`).
A dependency entry gives the same answer for the pattern in it (`answer_of_depend`).
-/
import Pkgsrc.Depend
import Pkgsrc.Proofs.Matcher.Prefilter

namespace Pkgsrc

set_option autoImplicit false

namespace Matcher

/-! ## Answers -/

/-- A result that takes a malformed candidate for refused. -/
def lenient : Except Matching.Fault Bool → Except Matching.Fault Bool
  | .error (.malformedName _) => .ok false
  | result => result

/-- What parsing a pattern and matching a candidate comes to, where neither a malformed pattern
nor a malformed candidate is a failure. -/
def answer (pattern candidate : Text) : Except Matching.Fault Bool :=
  match Pattern.parse pattern with
  | .error _ => .ok false
  | .ok read => lenient (read.accepts candidate)

theorem answer_of_parse {raw : Text} {pattern : Pattern} (read : Pattern.parse raw = .ok pattern)
    (candidate : Text) : answer raw candidate = lenient (pattern.accepts candidate) := by
  rw [answer, read]

/-- The only failure that is let through is a number that is too long. -/
theorem answer_eq_ok_or_number (pattern candidate : Text) :
    (∃ held, answer pattern candidate = .ok held) ∨
      ∃ cause, answer pattern candidate = .error (.number cause) := by
  cases read : Pattern.parse pattern with
  | error fault => exact Or.inl ⟨false, by rw [answer, read]⟩
  | ok parsed =>
      rw [answer_of_parse read]
      cases tried : parsed.accepts candidate with
      | ok held => exact Or.inl ⟨held, rfl⟩
      | error fault =>
          rcases Pattern.fault_of_parse read tried with rfl | ⟨cause, rfl⟩
          · exact Or.inl ⟨false, rfl⟩
          · exact Or.inr ⟨cause, rfl⟩

/-- Only a number that is too long is in the way of an answer, in the candidate or in a text that
the pattern expands to. -/
theorem exists_answer_of_reads {tree : Braces.Sequence} {raw candidate : Text} {pattern : Pattern}
    (reads : tree.Reads raw) (read : Pattern.parse raw = .ok pattern)
    (short : Decimal.Within candidate) (shortTexts : ∀ text ∈ tree.expand, Decimal.Within text) :
    ∃ held, answer raw candidate = .ok held := by
  rw [answer_of_parse read]
  by_cases hyphen : '-' ∈ candidate
  · obtain ⟨answers, -, tried⟩ := Pattern.exists_answers_of_reads reads read hyphen short shortTexts
    exact ⟨answers.any id, by rw [tried]; rfl⟩
  · cases tried : pattern.accepts candidate with
    | ok held => exact ⟨held, rfl⟩
    | error fault =>
        rcases Pattern.fault_of_parse read tried with rfl | ⟨cause, rfl⟩
        · exact ⟨false, rfl⟩
        · rw [Pattern.accepts, Pattern.firstMatch_eq_firstLeaf] at tried
          obtain ⟨leaf, ⟨earlier, later, shape, -⟩, failed⟩ :=
            Leaf.firstLeaf_eq_error_iff.1 (map_eq_error_iff.1 tried)
          have held : leaf ∈ pattern.leaves := by simp [shape]
          obtain ⟨text, -, readFrom⟩ := Pattern.exists_readFrom_of_reads reads read held
          exact absurd failed (readFrom.accepts_ne_number hyphen cause)

/-! ## Runs -/

theorem run_get_bind {ε α : Type} (next : Matcher → Ask ε α) (matcher : Matcher) :
    (get >>= next).run matcher = (next matcher).run matcher := rfl

theorem run_note_bind {ε α : Type} (what : Note) (next : Unit → Ask ε α) (matcher : Matcher) :
    (note what >>= next).run matcher =
      (next ()).run { matcher with notes := matcher.notes.push what } := rfl

theorem run_parseNew (cache : Cache) (text : Text) (absent : cache.find? text = none)
    (matcher : Matcher) :
    ((parseNew cache text absent).run matcher).1 = Pattern.parse text := by
  unfold parseNew
  rw [run_note_bind]
  split
  · rename_i found
    exact found.symm
  · rename_i found
    exact found.symm

/-- What is kept does not change what a text is read as. -/
theorem run_parsed (text : Text) (matcher : Matcher) :
    ((parsed text).run matcher).1 = Pattern.parse text := by
  unfold parsed
  rw [run_get_bind]
  split
  · rfl
  · split
    · rename_i known found
      exact (Cache.parse_of_find? found).symm
    · rename_i found
      exact run_parseNew _ text found matcher

theorem run_judge (pattern candidate : Text) (result : Except Matching.Fault Bool)
    (matcher : Matcher) :
    ((judge pattern candidate result).run matcher).1 = lenient result := by
  cases result with
  | ok held => rfl
  | error fault => cases fault <;> rfl

theorem run_tryMatch (pattern candidate : Text) (matcher : Matcher) :
    ((tryMatch pattern candidate).run matcher).1 = answer pattern candidate := by
  have same := run_parsed pattern matcher
  change (tryMatch pattern candidate matcher).1 = answer pattern candidate
  unfold tryMatch
  split
  · rename_i fault later ran
    rw [ran] at same
    rw [answer, ← same]
    rfl
  · rename_i read later ran
    rw [ran] at same
    rw [answer, ← same]
    exact run_judge pattern candidate (read.accepts candidate) later

theorem run_accepts (pattern candidate : Text) (matcher : Matcher) :
    ((accepts pattern candidate).run matcher).1 = answer pattern candidate := by
  unfold accepts
  cases compared : mayMatch pattern candidate with
  | true => exact run_tryMatch pattern candidate matcher
  | false =>
      change Except.ok false = answer pattern candidate
      cases read : Pattern.parse pattern with
      | error fault => rw [answer, read]
      | ok parsed =>
          rw [answer_of_parse read]
          rcases refused_of_parse read compared with refused | refused
          · rw [refused]
            rfl
          · rw [refused]
            rfl

/-! ## Entries -/

theorem answer_of_depend (depend : Depend) (candidate : Text) :
    depend.accepts candidate = answer depend.wanted candidate := by
  rw [answer_of_parse depend.isParse, Depend.accepts]
  cases depend.pattern.accepts candidate with
  | ok held => rfl
  | error fault => cases fault <;> rfl

theorem ofPattern_of_parse {wanted : Text} {pattern : Pattern}
    (read : Pattern.parse wanted = .ok pattern) (path : PkgPath) :
    Depend.ofPattern wanted path = .ok ⟨wanted, path, pattern, read⟩ :=
  Depend.ofPattern_eq_ok_iff.2 ⟨rfl, rfl⟩

/-- The pattern of an entry is what stands before its only colon. -/
theorem exists_path_of_ofText {entry : Text} {depend : Depend}
    (read : Depend.ofText entry = .ok depend) :
    ∃ path, Text.fields ':' entry = [depend.wanted, path] ∧ entry = depend.wanted ++ ':' :: path := by
  obtain ⟨path, cut, -⟩ := Depend.ofText_eq_ok_iff.1 read
  refine ⟨path, cut, ?_⟩
  have joined := Text.join_fields ':' entry
  rw [cut] at joined
  simpa [Text.join] using joined.symm

/-- **The comparison of first characters cannot be noticed.**  Whatever is kept, a matcher answers
what parsing and matching give, and lets through only numbers that are too long; a pattern that
can be parsed does not accept what the comparison refuses, and does not fail on a number either;
and a dependency entry answers as a matcher does for the pattern in it. -/
theorem accepts_eq_parse_then_match :
    (∀ (matcher : Matcher) (pattern candidate : Text),
      ((accepts pattern candidate).run matcher).1 = answer pattern candidate) ∧
    (∀ pattern candidate : Text, (∃ held, answer pattern candidate = .ok held) ∨
      ∃ cause, answer pattern candidate = .error (.number cause)) ∧
    (∀ (raw candidate : Text) (pattern : Pattern), mayMatch raw candidate = false →
      Pattern.parse raw = .ok pattern →
      pattern.accepts candidate = .ok false ∨
        pattern.accepts candidate = .error (.malformedName candidate)) ∧
    (∀ (entry candidate : Text) (depend : Depend) (matcher : Matcher),
      Depend.ofText entry = .ok depend →
      (∃ path, Text.fields ':' entry = [depend.wanted, path] ∧
        entry = depend.wanted ++ ':' :: path) ∧
      depend.accepts candidate = ((accepts depend.wanted candidate).run matcher).1) := by
  refine ⟨?_, answer_eq_ok_or_number, ?_, ?_⟩
  · intro matcher pattern candidate
    exact run_accepts pattern candidate matcher
  · intro raw candidate pattern compared read
    exact refused_of_parse read compared
  · intro entry candidate depend matcher read
    refine ⟨exists_path_of_ofText read, ?_⟩
    rw [answer_of_depend, run_accepts]

/-- `ab{>1,c}` refuses `ax-1`, and the entry `ab>1:x/ab` answers for `ab-2`. -/
theorem accepts_of_group_and_entry :
    (∃ pattern, mayMatch ['a', 'b', '{', '>', '1', ',', 'c', '}'] ['a', 'x', '-', '1'] = false ∧
      Pattern.parse ['a', 'b', '{', '>', '1', ',', 'c', '}'] = .ok pattern ∧
      (pattern.accepts ['a', 'x', '-', '1'] = .ok false ∨
        pattern.accepts ['a', 'x', '-', '1'] =
          .error (.malformedName ['a', 'x', '-', '1']))) ∧
    (∃ depend, Depend.ofText ['a', 'b', '>', '1', ':', 'x', '/', 'a', 'b'] = .ok depend ∧
      depend.accepts ['a', 'b', '-', '2'] =
        ((accepts depend.wanted ['a', 'b', '-', '2']).run forgetful).1) := by
  have relation : Pattern.parse ['a', 'b', '>', '1'] =
      .ok (.leaf (.relation ⟨['a', 'b'], .gt, ['1']⟩)) := by
    rw [Pattern.parse_of_no_braces (by decide)]
    rfl
  have name : Pattern.parse ['a', 'b', 'c'] = .ok (.leaf (.exact ['a', 'b', 'c'])) := by
    rw [Pattern.parse_of_no_braces (by decide)]
    rfl
  constructor
  · have group : Braces.firstGroup ['a', 'b', '{', '>', '1', ',', 'c', '}'] =
        .ok (some ⟨['a', 'b'], [['>', '1'], ['c']], []⟩) := rfl
    have read := Pattern.parse_of_group group
    simp only [Braces.Group.around, List.mapM_cons, List.mapM_nil, List.cons_append,
      List.nil_append, List.append_nil, relation, name] at read
    exact ⟨_, rfl, read, accepts_eq_parse_then_match.2.2.1 _ _ _ rfl read⟩
  · have read : Depend.ofText ['a', 'b', '>', '1', ':', 'x', '/', 'a', 'b'] =
        .ok ⟨['a', 'b', '>', '1'], ⟨['x'], ['a', 'b']⟩, _, relation⟩ :=
      ofPattern_of_parse relation ⟨['x'], ['a', 'b']⟩
    exact ⟨_, read, (accepts_eq_parse_then_match.2.2.2 _ _ _ forgetful read).2⟩

end Matcher

end Pkgsrc
