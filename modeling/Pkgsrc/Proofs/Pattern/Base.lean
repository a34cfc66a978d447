/-
# Pkgsrc.Proofs.Pattern.Base -- the base that a pattern tells

A pattern may tell the base of the names that it accepts, so that candidates can be looked up by
their bases.  Every candidate that such a pattern accepts is the base, a hyphen and some rest
(`Leaf.exists_rest_of_accepts`), and the base of the candidate is the told one exactly when the
rest has no further hyphen (`PkgName.base_eq_iff`).

An exact name, a relation and a range leave no hyphen in the rest.  A glob `name-[0-9]*` tells
`name` as well, but its star takes hyphens like any other character: it accepts `name-0-`, whose
base is `name-0`.  So the told base can be relied on unless the pattern is written as such a glob
(`base_of_accepted_unless_versioned`).
-/
import Pkgsrc.Proofs.Glob.Literal
import Pkgsrc.Proofs.Pattern.Expansion
import Mathlib.Data.Option.Basic

namespace Pkgsrc

set_option autoImplicit false

/-! ## Names that start with a base -/

theorem PkgName.exists_ofText? (base rest : Text) :
    ∃ name, ofText? (base ++ '-' :: rest) = some name := by
  cases read : ofText? (base ++ '-' :: rest) with
  | none => exact absurd (by simp) (ofText?_eq_none_iff.1 read)
  | some name => exact ⟨name, rfl⟩

theorem PkgName.base_eq_iff {base rest : Text} {name : PkgName}
    (read : ofText? (base ++ '-' :: rest) = some name) : name.base = base ↔ '-' ∉ rest := by
  constructor
  · rintro rfl
    have written := text_of_ofText? read
    have same : name.version = rest := by simpa [text] using written
    exact same ▸ name.noHyphen
  · intro noHyphen
    have whole : ofText? (base ++ '-' :: rest) = some ⟨base, rest, noHyphen⟩ :=
      ofText?_eq_some_iff.2 rfl
    cases read.symm.trans whole
    rfl

namespace Leaf

/-! ## Globs that ask for a version -/

/-- The part of the commonest glob that asks for a version. -/
def anyVersion : Text :=
  ['-', '[', '0', '-', '9', ']', '*']

/-- The text is a base and the glob for any version; one line break may end it. -/
def WrittenVersioned (base raw : Text) : Prop :=
  ∃ ending ∈ [[], ['\n']], raw = base ++ anyVersion ++ ending

/-- The set `[0-9]`. -/
def digitSet : Glob.CharSet :=
  ⟨[⟨'0', '9'⟩], false⟩

theorem writtenVersioned_of_versionedBase? {raw base : Text}
    (told : versionedBase? raw = some base) :
    WrittenVersioned base raw ∧ ∀ c ∈ base, isBaseChar c = true := by
  simp only [versionedBase?] at told
  split at told
  · cases told
  · rename_i start found
    split at told
    · rename_i wellFormed
      cases told
      refine ⟨?_, List.all_eq_true.1 wellFormed.2⟩
      rcases (Option.orElse_eq_some _ _ _).1 found with plain | ⟨-, broken⟩
      · have shape := Text.stripSuffix?_eq_some_iff.1 plain
        exact ⟨[], by simp, by simp [← shape, anyVersion]⟩
      · have shape := Text.stripSuffix?_eq_some_iff.1 broken
        exact ⟨['\n'], by simp, by simp [← shape, anyVersion]⟩
    · cases told

theorem ordinary_of_isBaseChar {c : Char} (held : isBaseChar c = true) : Glob.Ordinary c where
  notStar := by rintro rfl; cases held
  notAny := by rintro rfl; cases held
  notSet := by rintro rfl; cases held
  notEscape := by rintro rfl; cases held

theorem readTokens_set_star {ending : Text} (held : ending ∈ [[], ['\n']]) :
    Glob.readTokens (['[', '0', '-', '9', ']', '*'] ++ ending) =
      .ok (.single (.set digitSet) :: .star :: Glob.literals ending) := by
  have closed : Glob.readSet (['0', '-', '9', ']', '*'] ++ ending) =
      .ok (digitSet, '*' :: ending) := by
    simp [Glob.readSet, Glob.readNegation, Glob.readMembers, Glob.readMember, Glob.memberFrom,
      Glob.readChar, digitSet]
  have star : Glob.readTokens ('*' :: ending) = .ok (.star :: Glob.literals ending) := by
    rcases List.mem_pair.1 held with rfl | rfl
    · simp [Glob.readTokens, Glob.literals, Glob.Token.starThen, Except.map]
    · simp [Glob.readTokens, Glob.readChar, Glob.literals, Glob.Token.starThen, Except.map]
  rw [List.cons_append, Glob.readTokens_set closed, star]
  rfl

/-- A glob for any version accepts its base, a hyphen, a digit and whatever follows, further
hyphens included. -/
theorem accepts_versioned_iff {compiled : Glob} {base ending : Text}
    (held : ending ∈ [[], ['\n']]) (written : compiled.text = base ++ anyVersion ++ ending)
    (ordinary : ∀ c ∈ base, Glob.Ordinary c) (candidate : Text) :
    compiled.accepts candidate = true ↔
      ∃ digit more, digitSet.holds digit = true ∧
        candidate = base ++ '-' :: digit :: (more ++ ending) := by
  have hyphen : Glob.Ordinary '-' := ordinary_of_isBaseChar rfl
  have literal : ∀ c ∈ base ++ ['-'], Glob.Ordinary c := by
    intro c inside
    rcases List.mem_append.1 inside with inBase | last
    · exact ordinary c inBase
    · exact List.mem_singleton.1 last ▸ hyphen
  have tokens_eq : compiled.tokens =
      Glob.literals (base ++ ['-']) ++
        .single (.set digitSet) :: .star :: Glob.literals ending := by
    have read := Glob.readTokens_append_of_ordinary literal (readTokens_set_star held)
    have shape : compiled.text =
        (base ++ ['-']) ++ (['[', '0', '-', '9', ']', '*'] ++ ending) := by
      simp [written, anyVersion]
    rw [← shape] at read
    exact Except.ok.inj (compiled.compiled.symm.trans read)
  rw [Glob.accepts, Glob.matchTokens_eq_true_iff, tokens_eq, Glob.matches_literals_append_iff]
  constructor
  · rintro ⟨rest, rfl, found⟩
    cases found with
    | single digit star =>
        obtain ⟨more, left, rfl, after⟩ := Glob.matches_star_iff.1 star
        obtain rfl := Glob.matches_literals_iff.1 after
        exact ⟨_, more, digit, by simp⟩
  · rintro ⟨digit, more, isDigit, rfl⟩
    refine ⟨digit :: (more ++ ending), by simp, .single isDigit ?_⟩
    exact Glob.matches_star_iff.2 ⟨more, ending, rfl, Glob.matches_literals_iff.2 rfl⟩

/-! ## Accepted candidates -/

theorem exists_name_of_byVersion {base candidate : Text} {test : Text → Except NumberFault Bool}
    (accepted : Matching.byVersion base test candidate = .ok true) :
    ∃ name, PkgName.ofText? candidate = some name ∧ name.base = base := by
  cases named : PkgName.ofText? candidate with
  | none =>
      rw [Matching.byVersion_of_unnamed named] at accepted
      cases accepted
  | some name =>
      refine ⟨name, rfl, ?_⟩
      by_contra differs
      rw [Matching.byVersion_of_ne named differs] at accepted
      cases accepted

/-- An accepted candidate starts with the told base and a hyphen, and only a glob for any version
leaves room for a further hyphen. -/
theorem exists_rest_of_accepts {leaf : Leaf} {base candidate : Text}
    (told : leaf.pkgbase? = some base) (accepted : leaf.accepts candidate = .ok true) :
    ∃ rest, candidate = base ++ '-' :: rest ∧
      ('-' ∈ rest → ∃ compiled, leaf = .glob compiled) := by
  have ofName : ∀ {name : PkgName}, PkgName.ofText? candidate = some name → name.base = base →
      ∃ rest, candidate = base ++ '-' :: rest ∧
        ('-' ∈ rest → ∃ compiled, leaf = .glob compiled) := by
    rintro name named rfl
    exact ⟨name.version, (PkgName.text_of_ofText? named).symm,
      fun held => absurd held name.noHyphen⟩
  cases leaf with
  | exact written =>
      obtain ⟨name, named, same⟩ := Option.map_eq_some_iff.1 told
      obtain rfl : written = candidate := by simpa [Leaf.accepts] using accepted
      exact ofName named same
  | relation wanted =>
      cases told
      rw [accepts_relation] at accepted
      obtain ⟨name, named, same⟩ := exists_name_of_byVersion accepted
      exact ofName named same
  | range wanted lower upper =>
      cases told
      rw [accepts_range] at accepted
      obtain ⟨name, named, same⟩ := exists_name_of_byVersion accepted
      exact ofName named same
  | glob compiled =>
      obtain ⟨⟨ending, held, written⟩, isBase⟩ := writtenVersioned_of_versionedBase? told
      have ordinary : ∀ c ∈ base, Glob.Ordinary c := fun c inside =>
        ordinary_of_isBaseChar (isBase c inside)
      have matched : compiled.accepts candidate = true := by simpa [Leaf.accepts] using accepted
      obtain ⟨digit, more, -, shape⟩ :=
        (accepts_versioned_iff held written ordinary candidate).1 matched
      exact ⟨digit :: (more ++ ending), shape, fun _ => ⟨compiled, rfl⟩⟩
  | value plain => cases told
  | blank => cases told

/-- The star of a glob for any version takes a hyphen. -/
theorem accepts_further_hyphen {compiled : Glob} {base : Text}
    (told : (Leaf.glob compiled).pkgbase? = some base) :
    ∃ rest, '-' ∈ rest ∧ (Leaf.glob compiled).accepts (base ++ '-' :: rest) = .ok true := by
  obtain ⟨⟨ending, held, written⟩, isBase⟩ := writtenVersioned_of_versionedBase? told
  have ordinary : ∀ c ∈ base, Glob.Ordinary c := fun c inside =>
    ordinary_of_isBaseChar (isBase c inside)
  refine ⟨'0' :: (['-'] ++ ending), by simp, congrArg Except.ok ?_⟩
  exact (accepts_versioned_iff held written ordinary _).2 ⟨'0', ['-'], by decide, rfl⟩

/-- Of the leaves that tell a base, the globs are those written for any version. -/
theorem ReadFrom.writtenVersioned_iff {raw base : Text} {leaf : Leaf} (read : leaf.ReadFrom raw)
    (told : leaf.pkgbase? = some base) :
    WrittenVersioned base raw ↔ ∃ compiled, leaf = .glob compiled := by
  have written := read.text_eq
  constructor
  · rintro ⟨ending, -, shape⟩
    cases read with
    | exact uncut tame =>
        rw [shape] at tame
        simp [anyVersion, Pattern.isWildcard] at tame
    | glob compiled uncut wild compiles => exact ⟨compiled, rfl⟩
    | relation base' operator version cut named versioned =>
        cases told
        rw [shape, text, Relation.text, Relation.bound, List.append_assoc,
          List.append_cancel_left_eq] at written
        cases operator <;> cases written
    | range base' lower upper cut named lowerVersioned upperVersioned isLower isUpper =>
        cases told
        rw [shape, text, Relation.bound, List.append_assoc, List.append_assoc, List.append_assoc,
          List.append_cancel_left_eq] at written
        obtain ⟨operator, version⟩ := lower
        cases operator <;> cases written
  · rintro ⟨compiled, rfl⟩
    rw [← written]
    exact (writtenVersioned_of_versionedBase? told).1

end Leaf

namespace Pattern

/-- **The told base is that of every accepted candidate, unless the pattern is a glob for any
version.**  An accepted candidate always starts with the base and a hyphen, and it has another
base when a further hyphen follows. -/
theorem base_of_accepted_unless_versioned {raw base : Text} {pattern : Pattern}
    (read : parse raw = .ok pattern) (told : pattern.pkgbase? = some base) :
    (∀ candidate, pattern.accepts candidate = .ok true →
      ∃ name rest, PkgName.ofText? candidate = some name ∧ candidate = base ++ '-' :: rest ∧
        (name.base = base ↔ '-' ∉ rest)) ∧
    ((∀ candidate, pattern.accepts candidate = .ok true →
        ∃ name, PkgName.ofText? candidate = some name ∧ name.base = base) ↔
      ¬ Leaf.WrittenVersioned base raw) := by
  cases pattern with
  | alternation written branches => cases told
  | leaf leaf =>
      obtain ⟨-, readFrom⟩ := parse_eq_ok_leaf_iff.1 read
      simp only [accepts_leaf, readFrom.writtenVersioned_iff told]
      refine ⟨?_, ?_, ?_⟩
      · intro candidate accepted
        obtain ⟨rest, rfl, -⟩ := Leaf.exists_rest_of_accepts told accepted
        obtain ⟨name, named⟩ := PkgName.exists_ofText? base rest
        exact ⟨name, rest, named, rfl, PkgName.base_eq_iff named⟩
      · rintro sound ⟨compiled, rfl⟩
        obtain ⟨rest, hyphen, accepted⟩ := Leaf.accepts_further_hyphen told
        obtain ⟨name, named, same⟩ := sound _ accepted
        exact (PkgName.base_eq_iff named).1 same hyphen
      · intro noGlob candidate accepted
        obtain ⟨rest, rfl, onlyGlob⟩ := Leaf.exists_rest_of_accepts told accepted
        obtain ⟨name, named⟩ := PkgName.exists_ofText? base rest
        exact ⟨name, named, (PkgName.base_eq_iff named).2 fun held => noGlob (onlyGlob held)⟩

/-- `mutt-[0-9]*` -/
def anyMutt : Glob where
  text := ['m', 'u', 't', 't', '-'] ++ (['[', '0', '-', '9', ']', '*'] ++ [])
  tokens := Glob.literals ['m', 'u', 't', 't', '-'] ++
    .single (.set Leaf.digitSet) :: .star :: Glob.literals []
  compiled := by
    have isBase : ∀ c ∈ ['m', 'u', 't', 't', '-'], Leaf.isBaseChar c = true :=
      List.all_eq_true.1 rfl
    exact Glob.readTokens_append_of_ordinary
      (fun c inside => Leaf.ordinary_of_isBaseChar (isBase c inside))
      (Leaf.readTokens_set_star (by simp))

theorem parse_anyMutt : parse anyMutt.text = .ok (.leaf (.glob anyMutt)) := by
  have bare : '{' ∉ anyMutt.text ∧ '}' ∉ anyMutt.text := by decide
  exact parse_eq_ok_leaf_iff.2 ⟨bare, .glob anyMutt rfl rfl (Glob.compile_of_readTokens _)⟩

theorem base_of_accepted_by_relation_and_glob :
    (parse ['a', '-', 'b', '>', '1'] = .ok (.leaf (.relation ⟨['a', '-', 'b'], .gt, ['1']⟩)) ∧
      ∀ candidate, (Pattern.leaf (.relation ⟨['a', '-', 'b'], .gt, ['1']⟩)).accepts candidate =
        .ok true → ∃ name, PkgName.ofText? candidate = some name ∧ name.base = ['a', '-', 'b']) ∧
    (parse anyMutt.text = .ok (.leaf (.glob anyMutt)) ∧
      ¬ ∀ candidate, (Pattern.leaf (.glob anyMutt)).accepts candidate = .ok true →
        ∃ name, PkgName.ofText? candidate = some name ∧ name.base = ['m', 'u', 't', 't']) := by
  have relation : parse ['a', '-', 'b', '>', '1'] =
      .ok (.leaf (.relation ⟨['a', '-', 'b'], .gt, ['1']⟩)) := by
    rw [parse_of_no_braces (by decide)]
    rfl
  have notVersioned : ¬ Leaf.WrittenVersioned ['a', '-', 'b'] ['a', '-', 'b', '>', '1'] := by
    rintro ⟨ending, -, shape⟩
    cases shape
  have versioned : Leaf.WrittenVersioned ['m', 'u', 't', 't'] anyMutt.text :=
    ⟨[], by simp, rfl⟩
  refine ⟨⟨relation, ?_⟩, parse_anyMutt, ?_⟩
  · exact (base_of_accepted_unless_versioned relation rfl).2.2 notVersioned
  · intro sound
    exact (base_of_accepted_unless_versioned parse_anyMutt rfl).2.1 sound versioned

/-- `mutt-[0-9]*` tells the base `mutt` and accepts `mutt-1-2`, whose base is `mutt-1`. -/
theorem accepts_of_other_base :
    parse anyMutt.text = .ok (.leaf (.glob anyMutt)) ∧
    (Pattern.leaf (.glob anyMutt)).pkgbase? = some ['m', 'u', 't', 't'] ∧
    (Pattern.leaf (.glob anyMutt)).accepts ['m', 'u', 't', 't', '-', '1', '-', '2'] = .ok true ∧
    ∃ name, PkgName.ofText? ['m', 'u', 't', 't', '-', '1', '-', '2'] = some name ∧
      name.base = ['m', 'u', 't', 't', '-', '1'] := by
  refine ⟨parse_anyMutt, rfl, ?_, ⟨['m', 'u', 't', 't', '-', '1'], ['2'], by decide⟩, rfl, rfl⟩
  have matched : Glob.Matches anyMutt.tokens ['m', 'u', 't', 't', '-', '1', '-', '2'] := by
    refine Glob.matches_literals_append_iff.2 ⟨['1', '-', '2'], rfl, .single (by decide) ?_⟩
    exact Glob.matches_star_iff.2 ⟨['-', '2'], [], rfl, .nil⟩
  rw [accepts_leaf]
  exact congrArg Except.ok (Glob.matchTokens_eq_true_iff.2 matched)

end Pattern

end Pkgsrc
