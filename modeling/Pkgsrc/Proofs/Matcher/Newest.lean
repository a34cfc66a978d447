/-
# Pkgsrc.Proofs.Matcher.Newest -- the newest of all versions of a base

There are two ways to pick the newest of some versions of a base: to sort the versions and take the
first, or to ask a matcher for the best of their names, where the pattern is a glob that takes any
version.  A matcher keeps a leader that gives way to newer versions only, and sorting is stable; so
either way it is the first version that no other is newer than, if the versions can be ranked.

The glob is the base as it stands, a hyphen and a star (`anyOf`).  It takes every name of the base
(`answer_anyOf`), so all the names are accepted, and what prevails among them is the name of the
foremost version (`foremost_of_prevails`).
-/
import Pkgsrc.Proofs.Matcher.Best
import Pkgsrc.Proofs.Matcher.Relations
import Pkgsrc.Proofs.Version.Sorted

namespace Pkgsrc

set_option autoImplicit false

open Version

/-- The glob for any version of a base, as it is written. -/
def Pattern.anyOf (base : Text) : Text :=
  base ++ ['-', '*']

namespace Matcher

/-! ## The glob -/

section Glob

variable {base : Text} (unmarked : Pattern.Unmarked base) (ordinary : ∀ c ∈ base, Glob.Ordinary c)
include ordinary

theorem readTokens_anyOf :
    Glob.readTokens (Pattern.anyOf base) = .ok (Glob.literals (base ++ ['-']) ++ [.star]) := by
  have literal : ∀ c ∈ base ++ ['-'], Glob.Ordinary c := by
    intro c held
    rcases List.mem_append.1 held with inside | hyphen
    · exact ordinary c inside
    · rw [List.mem_singleton.1 hyphen]
      exact ⟨by decide, by decide, by decide, by decide⟩
  have star : Glob.readTokens ['*'] = .ok [.star] := by
    rw [Glob.readTokens_star, Glob.readTokens]
    rfl
  have read := Glob.readTokens_append_of_ordinary literal star
  rwa [List.append_assoc] at read

include unmarked

theorem parse_anyOf :
    Pattern.parse (Pattern.anyOf base) =
      .ok (.leaf (.glob ⟨_, _, readTokens_anyOf ordinary⟩)) := by
  have free : Pattern.Unmarked (Pattern.anyOf base) := by
    intro c held
    rcases List.mem_append.1 held with inside | ending
    · exact unmarked c inside
    · rcases List.mem_pair.1 ending with rfl | rfl <;> decide
  have bare : '{' ∉ Pattern.anyOf base ∧ '}' ∉ Pattern.anyOf base :=
    ⟨fun held => free _ held (by decide), fun held => free _ held (by decide)⟩
  have uncut : (Cuts.read (Pattern.anyOf base)).bounds = [] :=
    Cuts.bounds_read_eq_nil_iff.2 (Operator.not_occursIn_of_unmarked free)
  have wild : (Pattern.anyOf base).any Pattern.isWildcard = true := by
    simp [Pattern.anyOf, Pattern.isWildcard]
  exact Pattern.parse_eq_ok_leaf_iff.2 ⟨bare, .glob _ uncut wild (Glob.compile_of_readTokens _)⟩

theorem answer_anyOf (rest : Text) :
    answer (Pattern.anyOf base) (base ++ '-' :: rest) = .ok true := by
  have matched : Glob.Matches (Glob.literals (base ++ ['-']) ++ [.star]) (base ++ '-' :: rest) :=
    Glob.matches_literals_append_iff.2
      ⟨rest, by simp, Glob.matches_star_iff.2 ⟨rest, [], by simp, .nil⟩⟩
  have taken := Glob.matchTokens_eq_true_iff.2 matched
  rw [answer_of_parse (parse_anyOf unmarked ordinary), Pattern.accepts_leaf, Leaf.accepts,
    Glob.accepts, taken]
  rfl

end Glob

/-! ## The names of a base -/

section Names

variable {base : Text} {versions : List Text}

theorem versionOf_append_cons (base : Text) {version : Text} (noHyphen : '-' ∉ version) :
    versionOf (base ++ '-' :: version) = version := by
  rw [versionOf, Text.splitLast?_append_cons noHyphen]
  rfl

variable (noHyphen : ∀ version ∈ versions, '-' ∉ version)
include noHyphen

theorem climbs_names_iff {a b : Text} :
    Climbs (versions.map (base ++ '-' :: ·)) a b ↔
      ∃ v ∈ versions, ∃ w ∈ versions, a = base ++ '-' :: v ∧ b = base ++ '-' :: w ∧ Older v w := by
  constructor
  · rintro ⟨inA, inB, older⟩
    obtain ⟨v, inV, rfl⟩ := List.mem_map.1 inA
    obtain ⟨w, inW, rfl⟩ := List.mem_map.1 inB
    rw [versionOf_append_cons base (noHyphen v inV), versionOf_append_cons base (noHyphen w inW)]
      at older
    exact ⟨v, inV, w, inW, rfl, rfl, older⟩
  · rintro ⟨v, inV, w, inW, rfl, rfl, older⟩
    refine ⟨List.mem_map_of_mem inV, List.mem_map_of_mem inW, ?_⟩
    rwa [versionOf_append_cons base (noHyphen v inV), versionOf_append_cons base (noHyphen w inW)]

theorem climbs_names_trans (rankable : Rankable versions) {a b c : Text}
    (first : Climbs (versions.map (base ++ '-' :: ·)) a b)
    (second : Climbs (versions.map (base ++ '-' :: ·)) b c) :
    Climbs (versions.map (base ++ '-' :: ·)) a c := by
  rw [climbs_names_iff noHyphen] at first second ⊢
  obtain ⟨u, inU, v, inV, rfl, rfl, older⟩ := first
  obtain ⟨v', inV', w, inW, same, rfl, older'⟩ := second
  obtain rfl : v = v' := by simpa using same
  exact ⟨u, inU, w, inW, rfl, rfl, rankable.transitive u inU v inV w inW older older'⟩

/-- What prevails among the names of versions that can be ranked is the name of the foremost. -/
theorem foremost_of_prevails (rankable : Rankable versions) {before after : List Text} {best : Text}
    (prevails : Prevails (versions.map (base ++ '-' :: ·)) before best after) :
    ∃ earlier newest later, best = base ++ '-' :: newest ∧
      Foremost versions earlier newest later := by
  obtain ⟨unsurpassed, surpassed⟩ :=
    prevails.greatest fun a b c => climbs_names_trans noHyphen rankable
  obtain ⟨earlier, others, rfl, rfl, rest⟩ := List.map_eq_append_iff.1 prevails.place
  obtain ⟨newest, later, rfl, rfl, rfl⟩ := List.map_eq_cons_iff.1 rest
  have inside : newest ∈ earlier ++ newest :: later := by simp
  refine ⟨earlier, newest, later, rfl, rfl, ?_, ?_⟩
  · intro version held
    have notNewer := unsurpassed _ (List.mem_map_of_mem held)
    rwa [versionOf_append_cons base (noHyphen version held),
      versionOf_append_cons base (noHyphen newest inside)] at notNewer
  · intro version held
    obtain ⟨other, named, newer⟩ := surpassed _ (List.mem_map_of_mem held)
    obtain ⟨next, found, rfl⟩ := List.mem_map.1 named
    rw [versionOf_append_cons base (noHyphen next found),
      versionOf_append_cons base (noHyphen version (by simp [held]))] at newer
    exact ⟨next, found, newer⟩

end Names

/-! ## Two ways to pick the newest -/

theorem accepted_of_all {pattern : Text} {candidates : List Text}
    (all : ∀ candidate ∈ candidates, answer pattern candidate = .ok true) :
    accepted pattern candidates = candidates := by
  refine List.filter_eq_self.2 fun candidate inside => ?_
  rw [run_accepts, all candidate inside]

/-- **The best name of any version is the name of the most recent version**, which is the first one
given among equals either way. -/
theorem best_eq_mostRecent (matcher : Matcher) {base : Text} {versions : List Text}
    (unmarked : Pattern.Unmarked base) (ordinary : ∀ c ∈ base, Glob.Ordinary c)
    (nonempty : versions ≠ []) (noHyphen : ∀ version ∈ versions, '-' ∉ version)
    (rankable : Rankable versions) :
    ∃ newest, mostRecent? versions = .ok (some newest) ∧
      ((best? (Pattern.anyOf base) (versions.map (base ++ '-' :: ·))).run matcher).1 =
        .ok (some (base ++ '-' :: newest)) := by
  obtain ⟨before, newest, after, recent, foremost⟩ := exists_mostRecent rankable nonempty
  refine ⟨newest, recent, ?_⟩
  have all : ∀ candidate ∈ versions.map (base ++ '-' :: ·),
      answer (Pattern.anyOf base) candidate = .ok true := by
    intro candidate named
    obtain ⟨version, -, rfl⟩ := List.mem_map.1 named
    exact answer_anyOf unmarked ordinary version
  have within : ∀ text ∈ versions.map (base ++ '-' :: ·), Decimal.Within (versionOf text) := by
    intro text named
    obtain ⟨version, inside, rfl⟩ := List.mem_map.1 named
    rw [versionOf_append_cons base (noHyphen version inside)]
    exact rankable.within version inside
  obtain ⟨earlier, best, later, found, prevails⟩ := exists_prevailing within (by simpa using nonempty)
  obtain ⟨earlier', newest', later', rfl, foremost'⟩ :=
    foremost_of_prevails noHyphen rankable prevails
  obtain rfl := foremost.unique foremost'
  rw [run_best, foldlM_round fun candidate inside => ⟨true, all candidate inside⟩,
    accepted_of_all all]
  exact found

/-- Of `2.0` and `2` the first one given is picked either way, behind a base with a hyphen and a
bracket that opens nothing. -/
theorem best_of_various_spellings :
    let base := ['a', '-', ']']
    Pattern.Unmarked base ∧ (∀ c ∈ base, Glob.Ordinary c) ∧ variouslySpelled ≠ [] ∧
      (∀ version ∈ variouslySpelled, '-' ∉ version) ∧ Rankable variouslySpelled ∧
      mostRecent? variouslySpelled = .ok (some ['2', '.', '0']) ∧
      ((best? (Pattern.anyOf base) (variouslySpelled.map (base ++ '-' :: ·))).run forgetful).1 =
        .ok (some (base ++ '-' :: ['2', '.', '0'])) := by
  intro base
  have unmarked : Pattern.Unmarked base := by decide
  have ordinary : ∀ c ∈ base, Glob.Ordinary c := by
    intro c held
    have listed : c = 'a' ∨ c = '-' ∨ c = ']' := by simpa [base] using held
    rcases listed with rfl | rfl | rfl <;> exact ⟨by decide, by decide, by decide, by decide⟩
  have nonempty : variouslySpelled ≠ [] := by decide
  have noHyphen : ∀ version ∈ variouslySpelled, '-' ∉ version := by decide
  have first : mostRecent? variouslySpelled = .ok (some ['2', '.', '0']) := by
    rw [mostRecent?, sort_eq_mergeSort rankable_variouslySpelled.within]
    simp +decide [variouslySpelled, List.mergeSort]
  obtain ⟨newest, recent, found⟩ := best_eq_mostRecent forgetful unmarked ordinary nonempty noHyphen
    rankable_variouslySpelled
  obtain rfl := Option.some.inj (Except.ok.inj (recent.symm.trans first))
  exact ⟨unmarked, ordinary, nonempty, noHyphen, rankable_variouslySpelled, first, found⟩

end Matcher

end Pkgsrc
