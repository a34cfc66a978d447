/-
# Pkgsrc.Proofs.PkgPath.Forms -- the texts that are package paths

A package path has two forms, with the way up and without it, and a slash may end either
(`PkgPath.WrittenAs`).  These forms are read as the path and as nothing else.  A third ending is
taken besides: behind the last slash one line break is passed over, though not without that slash,
where it is a character of the package (`ofText?_eq_some_iff`).

With the way up taken off, what is left of a text is the short form and one of the three endings.
-/
import Pkgsrc.Proofs.Depend.RoundTrip

namespace Pkgsrc

set_option autoImplicit false

namespace PkgPath

/-- A category or a package may be called so. -/
structure Name (text : Text) : Prop where
  nonempty : text ≠ []
  undotted : text.head? ≠ some '.'
  unslashed : '/' ∉ text

/-- The path is written so: with the way up in front of it or not, and with a slash behind it or
not. -/
structure WrittenAs (path : PkgPath) (text : Text) : Prop where
  category : Name path.category
  package : Name path.package
  written : ∃ front ∈ [[], up], ∃ back ∈ [[], ['/']],
    text = front ++ (path.category ++ '/' :: path.package) ++ back

theorem isName_iff_name {text : Text} : isName text = true ↔ Name text := by
  rw [isName_iff]
  exact ⟨fun ⟨nonempty, undotted, unslashed⟩ => ⟨nonempty, undotted, unslashed⟩,
    fun ⟨nonempty, undotted, unslashed⟩ => ⟨nonempty, undotted, unslashed⟩⟩

theorem writtenAs_iff {path : PkgPath} {text : Text} :
    path.WrittenAs text ↔ path.Named ∧
      ∃ front ∈ [[], up], ∃ back ∈ [[], ['/']], text = front ++ path.text ++ back := by
  constructor
  · rintro ⟨category, package, written⟩
    exact ⟨⟨isName_iff_name.2 category, isName_iff_name.2 package⟩, written⟩
  · rintro ⟨⟨category, package⟩, written⟩
    exact ⟨isName_iff_name.1 category, isName_iff_name.1 package, written⟩

/-! ## The way up -/

theorem exists_front (text : Text) : ∃ front ∈ [[], up], text = front ++ withoutUp text := by
  unfold withoutUp
  cases cut : up.isPrefixOf? text with
  | none => exact ⟨[], by simp, rfl⟩
  | some rest =>
      exact ⟨up, by simp, (List.isPrefixOf?_eq_some_iff_append_eq.1 cut).symm⟩

/-- The way up is taken off, and nothing else. -/
theorem withoutUp_eq_iff {path : PkgPath} (named : path.Named) {text back : Text} :
    withoutUp text = path.text ++ back ↔ ∃ front ∈ [[], up], text = front ++ path.text ++ back := by
  constructor
  · intro short
    obtain ⟨front, held, written⟩ := exists_front text
    exact ⟨front, held, by rw [written, short, List.append_assoc]⟩
  · rintro ⟨front, held, rfl⟩
    rcases List.mem_cons.1 held with rfl | held
    · exact withoutUp_text named back
    · obtain rfl := List.mem_singleton.1 held
      exact withoutUp_fullText path back

/-! ## The endings -/

/-- What is read is the short form, perhaps a slash, and behind the slash perhaps a line break. -/
theorem ofText?_eq_some_iff {text : Text} {path : PkgPath} :
    ofText? text = some path ↔
      path.Named ∧ ∃ back ∈ [[], ['/'], ['/', '\n']], withoutUp text = path.text ++ back := by
  constructor
  · intro read
    unfold ofText? at read
    split at read
    · rename_i category package cut
      obtain ⟨named, rfl, rfl⟩ := of_ofNames? read
      obtain ⟨-, short⟩ := (Text.fields_eq_iff (by simp)).1 cut
      exact ⟨named, [], by simp, by simpa [Text.join, PkgPath.text] using short⟩
    · rename_i category package rest cut
      obtain ⟨-, short⟩ := (Text.fields_eq_iff (by simp)).1 cut
      split at read
      · rename_i ends
        obtain ⟨named, rfl, rfl⟩ := of_ofNames? read
        have ending : rest = [] ∨ rest = ['\n'] := by simpa [Text.atEnd] using ends
        refine ⟨named, '/' :: rest, ?_, by simpa [Text.join, PkgPath.text] using short⟩
        rcases ending with rfl | rfl <;> simp
      · cases read
    · cases read
  · rintro ⟨named, back, held, short⟩
    simp only [List.mem_cons, List.not_mem_nil, or_false] at held
    rcases held with rfl | rfl | rfl
    · exact ofText?_of_withoutUp named (.inl (by simpa using short))
    · exact ofText?_of_withoutUp named (.inr short)
    · obtain ⟨noSlash, noSlash'⟩ := named.noSlash
      have cut : Text.fields '/' (path.text ++ ['/', '\n']) =
          [path.category, path.package, ['\n']] :=
        (Text.fields_eq_iff (by simp)).2
          ⟨by simp [noSlash, noSlash'], by simp [PkgPath.text, Text.join]⟩
      rw [ofText?, short, cut]
      exact ofNames?_of_named named

theorem ofText?_of_writtenAs {text : Text} {path : PkgPath} (written : path.WrittenAs text) :
    ofText? text = some path := by
  obtain ⟨named, front, inFront, back, inBack, shape⟩ := writtenAs_iff.1 written
  have short := (withoutUp_eq_iff named).2 ⟨front, inFront, shape⟩
  refine ofText?_eq_some_iff.2 ⟨named, back, ?_, short⟩
  rcases List.mem_cons.1 inBack with rfl | inBack
  · simp
  · simp [List.mem_singleton.1 inBack]

/-- A path whose form ends in a slash has that slash behind the package. -/
theorem writtenAs_slash_iff {path : PkgPath} {start : Text} :
    path.WrittenAs (start ++ ['/']) ↔
      path.Named ∧ ∃ front ∈ [[], up], start = front ++ path.text := by
  rw [writtenAs_iff]
  refine and_congr_right fun named => ⟨?_, ?_⟩
  · rintro ⟨front, inFront, back, inBack, shape⟩
    rcases List.mem_cons.1 inBack with rfl | inBack
    · -- the last character would be one of the package
      have nonempty := (isName_iff_name.1 named.package).nonempty
      obtain ⟨c, last⟩ := Option.ne_none_iff_exists'.1 (mt List.getLast?_eq_none_iff.1 nonempty)
      have ends := congrArg List.getLast? shape
      obtain rfl : c = '/' := by
        simpa [PkgPath.text, List.getLast?_append, List.getLast?_cons, last] using ends.symm
      exact absurd (List.mem_of_getLast? last) named.noSlash.2
    · obtain rfl := List.mem_singleton.1 inBack
      exact ⟨front, inFront, List.append_cancel_right shape⟩
  · rintro ⟨front, inFront, rfl⟩
    exact ⟨front, inFront, ['/'], by simp, rfl⟩

theorem ofText?_eq_some_iff_writtenAs {text : Text} {path : PkgPath} :
    ofText? text = some path ↔
      path.WrittenAs text ∨
        ∃ start, text = start ++ ['/', '\n'] ∧ path.WrittenAs (start ++ ['/']) := by
  constructor
  · intro read
    obtain ⟨named, back, inBack, short⟩ := ofText?_eq_some_iff.1 read
    obtain ⟨front, inFront, shape⟩ := (withoutUp_eq_iff named).1 short
    simp only [List.mem_cons, List.not_mem_nil, or_false] at inBack
    rcases inBack with rfl | rfl | rfl
    · exact .inl (writtenAs_iff.2 ⟨named, front, inFront, [], by simp, shape⟩)
    · exact .inl (writtenAs_iff.2 ⟨named, front, inFront, ['/'], by simp, shape⟩)
    · exact .inr ⟨front ++ path.text, shape, writtenAs_slash_iff.2 ⟨named, front, inFront, rfl⟩⟩
  · rintro (written | ⟨start, rfl, written⟩)
    · exact ofText?_of_writtenAs written
    · obtain ⟨named, front, inFront, rfl⟩ := writtenAs_slash_iff.1 written
      refine ofText?_eq_some_iff.2 ⟨named, ['/', '\n'], by simp, ?_⟩
      exact (withoutUp_eq_iff named).2 ⟨front, inFront, rfl⟩

theorem ofText_eq_ok_iff {text : Text} {path : PkgPath} :
    ofText text = .ok path ↔ ofText? text = some path := by
  unfold ofText
  cases ofText? text <;> simp

/-- **A path is read from its forms, and from a form that ends in a slash with a line break behind
it.**  No text is a form of two paths, and every other text is reported as invalid. -/
theorem ofText_accepts_forms (text : Text) :
    (∀ path, ofText text = .ok path ↔
      path.WrittenAs text ∨
        ∃ start, text = start ++ ['/', '\n'] ∧ path.WrittenAs (start ++ ['/'])) ∧
    (∀ path other : PkgPath, path.WrittenAs text → other.WrittenAs text → other = path) ∧
    ∀ report, ofText text = .error report ↔
      report = .ofText .invalidPkgPath text ∧ ¬ ∃ path, ofText text = .ok path := by
  refine ⟨fun path => ?_, fun path other written written' => ?_, fun report => ?_⟩
  · rw [ofText_eq_ok_iff, ofText?_eq_some_iff_writtenAs]
  · have read := ofText?_of_writtenAs written
    rw [ofText?_of_writtenAs written', Option.some.injEq] at read
    exact read
  · unfold ofText
    cases ofText? text with
    | some path => simp
    | none => simp [eq_comm]

/-- `../../x./b/`, whose category ends in a dot, `a/b/` with a line break, and `a/.b`. -/
theorem ofText_of_slash_and_line_break :
    ofText ['.', '.', '/', '.', '.', '/', 'x', '.', '/', 'b', '/'] = .ok ⟨['x', '.'], ['b']⟩ ∧
    ofText ['a', '/', 'b', '/', '\n'] = .ok ⟨['a'], ['b']⟩ ∧
    ofText ['a', '/', '.', 'b'] = .error (.ofText .invalidPkgPath ['a', '/', '.', 'b']) := by
  have name {text : Text} (called : isName text = true) : Name text := isName_iff_name.1 called
  have slash : (PkgPath.mk ['a'] ['b']).WrittenAs (['a', '/', 'b'] ++ ['/']) :=
    ⟨name rfl, name rfl, [], by simp, ['/'], by simp, rfl⟩
  refine ⟨?_, ?_, ?_⟩
  · have full : (PkgPath.mk ['x', '.'] ['b']).WrittenAs
        ['.', '.', '/', '.', '.', '/', 'x', '.', '/', 'b', '/'] :=
      ⟨name rfl, name rfl, up, by simp, ['/'], by simp, rfl⟩
    exact ((ofText_accepts_forms _).1 _).2 (.inl full)
  · exact ((ofText_accepts_forms _).1 _).2 (.inr ⟨['a', '/', 'b'], rfl, slash⟩)
  · refine ((ofText_accepts_forms _).2.2 _).2 ⟨rfl, ?_⟩
    rintro ⟨path, read⟩
    cases read

/-- `a/b/` with a line break is read, but is no form of a path. -/
theorem ofText_passes_over_line_break :
    ¬ ((∃ path, ofText ['a', '/', 'b', '/', '\n'] = .ok path) ↔
      ∃ path : PkgPath, path.WrittenAs ['a', '/', 'b', '/', '\n']) := by
  intro forms
  obtain ⟨path, written⟩ := forms.1 ⟨⟨['a'], ['b']⟩, rfl⟩
  have read := ofText?_of_writtenAs written
  cases read
  obtain ⟨front, inFront, back, inBack, shape⟩ := written.written
  simp only [List.mem_cons, List.not_mem_nil, or_false] at inFront inBack
  rcases inFront with rfl | rfl <;> rcases inBack with rfl | rfl <;> cases shape

end PkgPath

end Pkgsrc
