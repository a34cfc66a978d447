/-
# Pkgsrc.Proofs.Glob.Writing -- tokens written as a glob

Tokens are written so that no character can be taken for anything else: behind every literal and
every end of a range stands a backslash.  `Token.Proper` says which lists of tokens are those of
a glob: no two stars stand side by side, and every set has a range and no range that ends before
it starts.  Whatever is read is proper (`proper_of_readTokens`), and proper tokens are read back
from what is written for them (`readTokens_textOfAll`).
-/
import Pkgsrc.Glob.Reader
import Pkgsrc.Proofs.Results
import Mathlib.Data.List.Chain

namespace Pkgsrc

set_option autoImplicit false

namespace Glob

/-! ## What is written -/

/-- A range, or its only character, behind backslashes. -/
def Range.text (range : CharRange) : Text :=
  if range.first = range.last then ['\\', range.first]
  else ['\\', range.first, '-', '\\', range.last]

/-- A set without its opening bracket. -/
def RangeSet.textInside (set : CharSet) : Text :=
  (if set.negated then ['!'] else []) ++ (set.ranges.flatMap Range.text ++ [']'])

/-- One token. -/
def Token.text : Token → Text
  | .star => ['*']
  | .single .any => ['?']
  | .single (.literal c) => ['\\', c]
  | .single (.set chars) => '[' :: chars.textInside

/-- Tokens, one after the other. -/
def Token.textOfAll (tokens : List Token) : Text :=
  tokens.flatMap Token.text

/-! ## The tokens of a glob -/

/-- A set has a range, and each of its ranges holds at least one character. -/
structure RangeSet.Proper (set : CharSet) : Prop where
  nonempty : set.ranges ≠ []
  ordered : ∀ range ∈ set.ranges, range.first ≤ range.last

/-- The tokens that a glob can have. -/
structure Token.Proper (tokens : List Token) : Prop where
  apart : tokens.IsChain fun left right => ¬ (left = .star ∧ right = .star)
  sets : ∀ set, .single (.set set) ∈ tokens → set.Proper

theorem proper_nil : Token.Proper [] where
  apart := .nil
  sets := by simp

theorem proper_star_cons_iff {tokens : List Token} :
    Token.Proper (.star :: tokens) ↔ tokens.head? ≠ some .star ∧ Token.Proper tokens := by
  constructor
  · rintro ⟨apart, sets⟩
    obtain ⟨first, others⟩ := List.isChain_cons.1 apart
    exact ⟨fun star => first _ star ⟨rfl, rfl⟩, others, by simpa using sets⟩
  · rintro ⟨first, others, sets⟩
    refine ⟨List.isChain_cons.2 ⟨?_, others⟩, by simpa using sets⟩
    rintro next held ⟨-, rfl⟩
    exact first held

theorem proper_single_cons_iff {test : CharTest} {tokens : List Token} :
    Token.Proper (.single test :: tokens) ↔
      (∀ set, test = .set set → set.Proper) ∧ Token.Proper tokens := by
  constructor
  · rintro ⟨apart, sets⟩
    refine ⟨?_, (List.isChain_cons.1 apart).2, fun set held => sets set (.tail _ held)⟩
    rintro set rfl
    exact sets set (.head _)
  · rintro ⟨first, others, sets⟩
    refine ⟨List.isChain_cons.2 ⟨by simp, others⟩, fun set held => ?_⟩
    rcases List.mem_cons.1 held with same | later
    · cases same
      exact first set rfl
    · exact sets set later

/-! ## What is read is proper -/

theorem proper_starThen {tokens : List Token} (proper : Token.Proper tokens) :
    Token.Proper (Token.starThen tokens) := by
  match tokens with
  | [] => exact proper_star_cons_iff.2 ⟨by simp, proper⟩
  | .star :: _ => exact proper
  | .single _ :: _ => exact proper_star_cons_iff.2 ⟨by simp, proper⟩

theorem ordered_of_readMembers {start : Bool} {text after : Text} {ranges : List CharRange}
    (read : readMembers start text = .ok (ranges, after)) :
    ∀ range ∈ ranges, range.first ≤ range.last := by
  fun_induction readMembers start text generalizing ranges after with
  | case1 => cases read
  | case2 => cases read; simp
  | case3 => cases read
  | case4 => cases read
  | case5 start c rest closing ordered inner after' found ih =>
      cases read
      exact List.forall_mem_cons.2 ⟨Char.not_lt.1 ordered, ih found⟩

/-- A `]` does not close a set at its start. -/
theorem ranges_ne_nil_of_readMembers {text after : Text} {ranges : List CharRange}
    (read : readMembers true text = .ok (ranges, after)) : ranges ≠ [] := by
  cases text with
  | nil => simp [readMembers] at read
  | cons c rest =>
      rw [readMembers, if_neg (by simp)] at read
      split at read
      · cases read
      · split at read
        · cases read
        · cases read
          exact List.cons_ne_nil _ _

theorem proper_of_readSet {text after : Text} {set : CharSet}
    (read : readSet text = .ok (set, after)) : set.Proper := by
  unfold readSet at read
  split at read
  · cases read
  · rename_i found
    cases read
    exact ⟨ranges_ne_nil_of_readMembers found, ordered_of_readMembers found⟩

theorem proper_of_readTokens {text : Text} {tokens : List Token}
    (read : readTokens text = .ok tokens) : Token.Proper tokens := by
  fun_induction readTokens text generalizing tokens with
  | case1 =>
      cases read
      exact proper_nil
  | case2 rest ih =>
      obtain ⟨others, found, rfl⟩ := map_eq_ok_iff.1 read
      exact proper_starThen (ih found)
  | case3 rest notStar ih =>
      obtain ⟨others, found, rfl⟩ := map_eq_ok_iff.1 read
      exact proper_single_cons_iff.2 ⟨by simp, ih found⟩
  | case4 => cases read
  | case5 rest set after closed notStar notAny ih =>
      obtain ⟨others, found, rfl⟩ := map_eq_ok_iff.1 read
      refine proper_single_cons_iff.2 ⟨?_, ih found⟩
      rintro _ ⟨⟩
      exact proper_of_readSet closed
  | case6 c rest notStar notAny notSet ih =>
      obtain ⟨others, found, rfl⟩ := map_eq_ok_iff.1 read
      exact proper_single_cons_iff.2 ⟨by simp, ih found⟩

/-! ## What is written is read back -/

/-- A range is read back in front of anything that does not start with a hyphen. -/
theorem readMember_text (range : CharRange) {after : Text} (next : after.head? ≠ some '-') :
    ∃ inner, range.text ++ after = '\\' :: inner ∧ readMember '\\' inner = (range, after) := by
  obtain ⟨first, last⟩ := range
  by_cases same : first = last
  · subst same
    refine ⟨first :: after, by simp [Range.text], ?_⟩
    cases after with
    | nil => rfl
    | cons c after =>
        have notHyphen : c ≠ '-' := by simpa using next
        simp [readMember, readChar, memberFrom, notHyphen]
  · refine ⟨first :: '-' :: '\\' :: last :: after, by simp [Range.text, same], ?_⟩
    simp [readMember, readChar, memberFrom]

theorem head?_members_ne (ranges : List CharRange) (after : Text) :
    (ranges.flatMap Range.text ++ ']' :: after).head? ≠ some '-' := by
  cases ranges with
  | nil => simp
  | cons range others => by_cases same : range.first = range.last <;> simp [Range.text, same]

theorem readMembers_text {start : Bool} {ranges : List CharRange}
    (ordered : ∀ range ∈ ranges, range.first ≤ range.last) (filled : start = true → ranges ≠ [])
    (after : Text) :
    readMembers start (ranges.flatMap Range.text ++ ']' :: after) = .ok (ranges, after) := by
  induction ranges generalizing start with
  | nil =>
      have inside : start = false := by simpa using filled
      simp [readMembers, inside]
  | cons range others ih =>
      obtain ⟨first, rest⟩ := List.forall_mem_cons.1 ordered
      obtain ⟨inner, shape, member⟩ := readMember_text range (head?_members_ne others after)
      have others_eq : readMembers false (others.flatMap Range.text ++ ']' :: after) =
          .ok (others, after) := ih rest (by simp)
      rw [List.flatMap_cons, List.append_assoc, shape, readMembers, if_neg (by simp), member,
        if_neg (Char.not_lt.2 first), others_eq]

/-- The mark of a complement is taken for one, and no first range is. -/
theorem readNegation_textInside {set : CharSet} (nonempty : set.ranges ≠ []) (after : Text) :
    readNegation (set.textInside ++ after) =
      (set.negated, set.ranges.flatMap Range.text ++ ']' :: after) := by
  obtain ⟨ranges, negated⟩ := set
  cases negated with
  | true => simp [RangeSet.textInside, readNegation]
  | false =>
      obtain ⟨first, others, rfl⟩ := List.exists_cons_of_ne_nil nonempty
      by_cases same : first.first = first.last <;>
        simp [RangeSet.textInside, readNegation, Range.text, same]

theorem readSet_text {set : CharSet} (proper : set.Proper) (after : Text) :
    readSet (set.textInside ++ after) = .ok (set, after) := by
  have members : readMembers true (set.ranges.flatMap Range.text ++ ']' :: after) =
      .ok (set.ranges, after) :=
    readMembers_text proper.ordered (fun _ => proper.nonempty) after
  rw [readSet, readNegation_textInside proper.nonempty, members]

/-- A test is read back in front of any tokens. -/
theorem readTokens_text_append {test : CharTest} (proper : ∀ set, test = .set set → set.Proper)
    (text : Text) :
    readTokens (Token.text (.single test) ++ text) = (readTokens text).map (.single test :: ·) := by
  cases test with
  | literal c => exact readTokens_char (by decide) (by decide) (by decide) (c :: text)
  | any => exact readTokens_any text
  | set chars => exact readTokens_set (readSet_text (proper chars rfl) text)

theorem starThen_of_head?_ne {tokens : List Token} (noStar : tokens.head? ≠ some .star) :
    Token.starThen tokens = .star :: tokens := by
  match tokens with
  | [] => rfl
  | .star :: _ => exact absurd rfl noStar
  | .single _ :: _ => rfl

/-- Proper tokens are read back from what is written for them. -/
theorem readTokens_textOfAll {tokens : List Token} (proper : Token.Proper tokens) :
    readTokens (Token.textOfAll tokens) = .ok tokens := by
  induction tokens with
  | nil => simp [Token.textOfAll, readTokens]
  | cons token tokens ih =>
      have shape : Token.textOfAll (token :: tokens) = token.text ++ Token.textOfAll tokens :=
        List.flatMap_cons
      rw [shape]
      cases token with
      | star =>
          obtain ⟨noStar, others⟩ := proper_star_cons_iff.1 proper
          rw [Token.text, List.singleton_append, readTokens_star, ih others]
          exact congrArg Except.ok (starThen_of_head?_ne noStar)
      | single test =>
          obtain ⟨sets, others⟩ := proper_single_cons_iff.1 proper
          rw [readTokens_text_append sets, ih others]
          rfl

/-- **Exactly the proper tokens are read from a glob, and they are read from what is written for
them.** -/
theorem readTokens_recovers_proper (tokens : List Token) :
    ((∃ text, readTokens text = .ok tokens) ↔ Token.Proper tokens) ∧
      (readTokens (Token.textOfAll tokens) = .ok tokens ↔ Token.Proper tokens) := by
  refine ⟨⟨?_, ?_⟩, proper_of_readTokens, readTokens_textOfAll⟩
  · rintro ⟨text, read⟩
    exact proper_of_readTokens read
  · exact fun proper => ⟨Token.textOfAll tokens, readTokens_textOfAll proper⟩

/-- `[!\]\!-\^]*`, where a bracket, the mark of a complement and a range between marks are
characters of a set. -/
example : Token.textOfAll
      [.single (.set ⟨[⟨']', ']'⟩, ⟨'!', '^'⟩], true⟩), .star] =
    ['[', '!', '\\', ']', '\\', '!', '-', '\\', '^', ']', '*'] := by decide

end Glob

end Pkgsrc
