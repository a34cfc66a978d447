/-
# Pkgsrc.Proofs.Depend.RoundTrip -- entries and paths that are written and read again

A path that was read has names for its parts (`PkgPath.fields_of_ofText?`), and a name holds no
slash and does not start with a dot.  So the short form is not mistaken for one that goes up first,
and the path is found again in both of its forms, with a slash behind them or without
(`PkgPath.ofText?_of_withoutUp`).

An entry is written with the relative form of its path, whichever form it was read from.  Neither
the pattern nor the path of an entry that was read holds a colon, hence the text is cut where the
two were put together and gives the same entry again (`Depend.ofText_text`).
-/
import Pkgsrc.Operand
import Pkgsrc.Proofs.Matcher.Answer
import Pkgsrc.Proofs.Pattern.RoundTrip
import Mathlib.Data.List.Basic

namespace Pkgsrc

set_option autoImplicit false

/-! ## Paths -/

namespace PkgPath

/-- The category and the package may be called so. -/
structure Named (path : PkgPath) : Prop where
  category : isName path.category = true
  package : isName path.package = true

theorem isName_iff {text : Text} :
    isName text = true ↔ text ≠ [] ∧ text.head? ≠ some '.' ∧ '/' ∉ text := by
  cases text with
  | nil => simp [isName]
  | cons c rest => simp [isName]

theorem Named.noSlash {path : PkgPath} (named : path.Named) :
    '/' ∉ path.category ∧ '/' ∉ path.package :=
  ⟨(isName_iff.1 named.category).2.2, (isName_iff.1 named.package).2.2⟩

theorem ofNames?_of_named {path : PkgPath} (named : path.Named) :
    ofNames? path.category path.package = some path := by
  rw [ofNames?, named.category, named.package]
  rfl

theorem of_ofNames? {category package : Text} {path : PkgPath}
    (found : ofNames? category package = some path) :
    path.Named ∧ path.category = category ∧ path.package = package := by
  unfold ofNames? at found
  split at found
  · rename_i names
    obtain ⟨first, second⟩ := Bool.and_eq_true_iff.1 names
    cases found
    exact ⟨⟨first, second⟩, rfl, rfl⟩
  · cases found

/-- What is read is made of names, which are the first fields of the text. -/
theorem fields_of_ofText? {text : Text} {path : PkgPath} (read : ofText? text = some path) :
    path.Named ∧ ∃ others,
      Text.fields '/' (withoutUp text) = path.category :: path.package :: others := by
  unfold ofText? at read
  split at read
  · rename_i category package cut
    obtain ⟨named, rfl, rfl⟩ := of_ofNames? read
    exact ⟨named, [], cut⟩
  · rename_i category package rest cut
    split at read
    · obtain ⟨named, rfl, rfl⟩ := of_ofNames? read
      exact ⟨named, [rest], cut⟩
    · cases read
  · cases read

/-! ### The way up -/

theorem withoutUp_fullText (path : PkgPath) (rest : Text) :
    withoutUp (path.fullText ++ rest) = path.text ++ rest := by
  have cut : up.isPrefixOf? (path.fullText ++ rest) = some (path.text ++ rest) :=
    List.isPrefixOf?_eq_some_iff_append_eq.2 (by simp [fullText])
  rw [withoutUp, cut]
  rfl

/-- The short form does not go up, since no category starts with a dot. -/
theorem withoutUp_text {path : PkgPath} (named : path.Named) (rest : Text) :
    withoutUp (path.text ++ rest) = path.text ++ rest := by
  obtain ⟨nonempty, undotted, -⟩ := isName_iff.1 named.category
  obtain ⟨c, others, shape⟩ := List.exists_cons_of_ne_nil nonempty
  have cut : up.isPrefixOf? (path.text ++ rest) = none := by
    have differs : '.' ≠ c := by
      rintro rfl
      exact undotted (by rw [shape]; rfl)
    simp [up, text, shape, List.isPrefixOf?, differs]
  rw [withoutUp, cut]
  rfl

theorem mem_of_mem_withoutUp {text : Text} {c : Char} (held : c ∈ withoutUp text) : c ∈ text := by
  unfold withoutUp at held
  cases cut : up.isPrefixOf? text with
  | none => rwa [cut] at held
  | some rest =>
      rw [cut] at held
      rw [← List.isPrefixOf?_eq_some_iff_append_eq.1 cut]
      exact List.mem_append_right _ held

/-! ### Reading again -/

section Spelling

variable {path : PkgPath} (named : path.Named)
include named

/-- A path is read from its short form behind the way up, whether a slash follows or not. -/
theorem ofText?_of_withoutUp {spelling : Text}
    (short : withoutUp spelling = path.text ∨ withoutUp spelling = path.text ++ ['/']) :
    ofText? spelling = some path := by
  obtain ⟨noSlash, noSlash'⟩ := named.noSlash
  rcases short with short | short
  · have cut : Text.fields '/' path.text = [path.category, path.package] := by
      rw [text, Text.fields_append_cons noSlash, Text.fields_of_not_mem noSlash']
    rw [ofText?, short, cut]
    exact ofNames?_of_named named
  · have cut : Text.fields '/' (path.text ++ ['/']) = [path.category, path.package, []] := by
      rw [text, List.append_assoc, List.cons_append, Text.fields_append_cons noSlash,
        Text.fields_append_cons noSlash']
      rfl
    rw [ofText?, short, cut]
    exact ofNames?_of_named named

/-- **Both forms of a path are read as the path, with a slash behind them or without.** -/
theorem ofText?_spellings :
    ofText? path.text = some path ∧ ofText? path.fullText = some path ∧
      ofText? (path.text ++ ['/']) = some path ∧ ofText? (path.fullText ++ ['/']) = some path := by
  have short := withoutUp_text named []
  have full := withoutUp_fullText path []
  simp only [List.append_nil] at short full
  exact ⟨ofText?_of_withoutUp named (.inl short), ofText?_of_withoutUp named (.inl full),
    ofText?_of_withoutUp named (.inr (withoutUp_text named ['/'])),
    ofText?_of_withoutUp named (.inr (withoutUp_fullText path ['/']))⟩

end Spelling

/-- The relative form holds characters of the text that the path was read from, dots and
slashes. -/
theorem mem_of_mem_fullText {text : Text} {path : PkgPath} (read : ofText? text = some path)
    {c : Char} (held : c ∈ path.fullText) : c ∈ text ∨ c = '.' ∨ c = '/' := by
  obtain ⟨-, others, cut⟩ := fields_of_ofText? read
  have inside {field : Text} (part : field ∈ path.category :: path.package :: others)
      (held : c ∈ field) : c ∈ text :=
    mem_of_mem_withoutUp (Text.mem_of_mem_fields (cut ▸ part) held).1
  simp only [fullText, PkgPath.text, List.mem_append, List.mem_cons] at held
  rcases held with held | held | rfl | held
  · have upward : up ⊆ ['.', '/'] := by decide
    exact .inr (by simpa using upward held)
  · exact .inl (inside List.mem_cons_self held)
  · exact .inr (.inr rfl)
  · exact .inl (inside (by simp) held)

end PkgPath

/-! ## Entries -/

namespace Depend

/-- An entry that was read is written with one colon, between its pattern and its path. -/
theorem fields_text {entry : Text} {depend : Depend} (read : ofText entry = .ok depend) :
    Text.fields ':' depend.text = [depend.wanted, depend.pkgpath.fullText] := by
  obtain ⟨path, cut, found⟩ := ofText_eq_ok_iff.1 read
  have wantedFree : ':' ∉ depend.wanted := fun held =>
    (Text.mem_of_mem_fields (cut ▸ List.mem_cons_self) held).2 rfl
  have pathFree : ':' ∉ path := fun held =>
    (Text.mem_of_mem_fields (cut ▸ List.mem_cons_of_mem _ List.mem_cons_self) held).2 rfl
  have fullFree : ':' ∉ depend.pkgpath.fullText := by
    intro held
    rcases PkgPath.mem_of_mem_fullText found held with inside | dot | slash
    · exact pathFree inside
    · cases dot
    · cases slash
  rw [text, Text.fields_append_cons wantedFree, Text.fields_of_not_mem fullFree]

/-- An entry that was read is read again from the text that it is written as. -/
theorem ofText_text {entry : Text} {depend : Depend} (read : ofText entry = .ok depend) :
    ofText depend.text = .ok depend := by
  obtain ⟨path, -, found⟩ := ofText_eq_ok_iff.1 read
  have named := (PkgPath.fields_of_ofText? found).1
  exact ofText_eq_ok_iff.2 ⟨_, fields_text read, (PkgPath.ofText?_spellings named).2.1⟩

theorem same_self (depend : Depend) : depend.same depend = true := by
  simp [same, Pattern.same_self]

/-- **Entries and paths survive being written.**  An entry that was read is written as a text that
is an entry again, equal to the first one, written alike and satisfied by the same candidates; and
each form of a path that was read is read as the same path, with a slash behind it or without. -/
theorem entries_and_paths_read_again :
    (∀ (entry : Text) (depend : Depend), ofText entry = .ok depend →
      ∃ again, ofText depend.text = .ok again ∧
        Operand.same (.depend again) (.depend depend) = .ok true ∧ again.text = depend.text ∧
        ∀ candidate, again.accepts candidate = depend.accepts candidate) ∧
    (∀ (text : Text) (path : PkgPath), PkgPath.ofText? text = some path →
      ∀ spelling ∈ [path.text, path.fullText, path.text ++ ['/'], path.fullText ++ ['/']],
        PkgPath.ofText? spelling = some path) := by
  constructor
  · intro entry depend read
    exact ⟨depend, ofText_text read, congrArg Except.ok depend.same_self, rfl, fun _ => rfl⟩
  · intro text path read
    obtain ⟨short, full, shortSlash, fullSlash⟩ :=
      PkgPath.ofText?_spellings (PkgPath.fields_of_ofText? read).1
    simp [short, full, shortSlash, fullSlash]

/-- `ab>1:x./b` with a line break at its end, which belongs to the package; and `../../x./b/` with
one, which does not. -/
theorem entry_and_path_before_line_break :
    (∃ depend, ofText ['a', 'b', '>', '1', ':', 'x', '.', '/', 'b', '\n'] = .ok depend ∧
      depend.pkgpath.package = ['b', '\n'] ∧
      ∃ again, ofText depend.text = .ok again ∧
        Operand.same (.depend again) (.depend depend) = .ok true ∧ again.text = depend.text ∧
        ∀ candidate, again.accepts candidate = depend.accepts candidate) ∧
    (∃ path, PkgPath.ofText? ['.', '.', '/', '.', '.', '/', 'x', '.', '/', 'b', '/', '\n'] =
        some path ∧
      path.fullText ++ ['/'] = ['.', '.', '/', '.', '.', '/', 'x', '.', '/', 'b', '/'] ∧
      path.fullText ++ ['/'] ∈
        [path.text, path.fullText, path.text ++ ['/'], path.fullText ++ ['/']] ∧
      PkgPath.ofText? (path.fullText ++ ['/']) = some path) := by
  have relation : Pattern.parse ['a', 'b', '>', '1'] =
      .ok (.leaf (.relation ⟨['a', 'b'], .gt, ['1']⟩)) := by
    rw [Pattern.parse_of_no_braces (by decide)]
    rfl
  have read : ofText ['a', 'b', '>', '1', ':', 'x', '.', '/', 'b', '\n'] =
      .ok ⟨['a', 'b', '>', '1'], ⟨['x', '.'], ['b', '\n']⟩, _, relation⟩ :=
    ofText_eq_ok_iff.2 ⟨['x', '.', '/', 'b', '\n'], rfl, rfl⟩
  have held : ∀ path : PkgPath, path.fullText ++ ['/'] ∈
      [path.text, path.fullText, path.text ++ ['/'], path.fullText ++ ['/']] := by simp
  refine ⟨⟨_, read, rfl, entries_and_paths_read_again.1 _ _ read⟩,
    ⟨['x', '.'], ['b']⟩, rfl, rfl, held _, ?_⟩
  exact entries_and_paths_read_again.2
    ['.', '.', '/', '.', '.', '/', 'x', '.', '/', 'b', '/', '\n'] _ rfl _ (held _)

end Depend

end Pkgsrc
