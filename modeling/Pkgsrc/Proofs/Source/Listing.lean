/-
# Pkgsrc.Proofs.Source.Listing -- files that hold given entries

A text lists some entries if each of them stands on a line of its own and all other lines are
empty; how the lines end does not matter (`Text.Lists`).  These are then the entries of the text
(`Text.entries_of_lists`).  So a file that can be had and whose content is such a text is read as
these entries (`Listing.readEntries_of_holds`), wherever it is; a stored file leaves the web as it
is (`Listing.holds_of_stored`).
-/
import Pkgsrc.Source.Listing
import Mathlib.Data.List.TakeWhile

namespace Pkgsrc

set_option autoImplicit false

namespace Text

/-! ## Entries on lines -/

/-- A line that is an entry as it stands. -/
structure IsEntry (line : Text) : Prop where
  filled : line ≠ []
  stripped : strip line = line
  unbroken : ∀ c ∈ line, isLineBoundary c = false

/-- The entries stand one on a line, and the other lines are empty. -/
inductive Lists : List Text → Text → Prop where
  | nil : Lists [] []
  | last {line : Text} (entry : IsEntry line) : Lists [line] line
  | cons {line : Text} {lines : List Text} {boundary : Char} {text : Text} (entry : IsEntry line)
      (ends : isLineBoundary boundary = true) (others : Lists lines text) :
      Lists (line :: lines) (line ++ boundary :: text)
  | blank {lines : List Text} {boundary : Char} {text : Text}
      (ends : isLineBoundary boundary = true) (others : Lists lines text) :
      Lists lines (boundary :: text)

theorem IsEntry.entries_eq {line : Text} (entry : IsEntry line) : entries line = [line] := by
  rw [entries, fieldsBy_of_unmarked entry.unbroken]
  simp [entry.stripped, entry.filled]

theorem entries_of_lists {lines : List Text} {text : Text} (listed : Lists lines text) :
    entries text = lines := by
  induction listed with
  | nil => rfl
  | last entry => exact entry.entries_eq
  | @cons line lines boundary text entry ends others ih =>
      rw [entries_append_cons ends, entry.entries_eq, ih]
      rfl
  | @blank lines boundary text ends others ih =>
      have cut := entries_append_cons ends [] text
      rw [List.nil_append] at cut
      rw [cut, ih]
      rfl

/-- Nothing is dropped from a text that does not start with a mark. -/
theorem dropWhile_eq_self_iff {isMark : Char → Bool} {text : Text} :
    text.dropWhile isMark = text ↔ ∀ c ∈ text.head?, isMark c = false := by
  cases text with
  | nil => simp
  | cons c rest => simp [List.dropWhile_eq_self_iff]

theorem dropWhile_isSpace_of_no_space {text : Text} (noSpace : text.any isSpace = false) :
    text.dropWhile isSpace = text := by
  cases text with
  | nil => rfl
  | cons c rest =>
      rw [List.any_cons, Bool.or_eq_false_iff] at noSpace
      exact List.dropWhile_cons_of_neg (by simp [noSpace.1])

/-- A line without white space is an entry. -/
theorem isEntry_of_no_space {line : Text} (filled : line ≠ []) (noSpace : line.any isSpace = false) :
    IsEntry line := by
  refine ⟨filled, ?_, fun c held => ?_⟩
  · have noSpaceBack : line.reverse.any isSpace = false := by rwa [List.any_reverse]
    rw [strip, dropWhile_isSpace_of_no_space noSpace, dropWhile_isSpace_of_no_space noSpaceBack,
      List.reverse_reverse]
  · cases ends : isLineBoundary c with
    | false => rfl
    | true => exact absurd (isSpace_of_isLineBoundary ends) (List.any_eq_false.1 noSpace c held)

end Text

namespace Listing

/-! ## Files that hold them -/

/-- The content of a file, wherever it is. -/
def fetch (files : Text → Option Bytes) (url : Text) : ExceptT File.Fault (StateM Web) Bytes :=
  fun web =>
    match File.openUrl files url with
    | .error fault => (.error fault, web)
    | .ok file =>
      match (File.read none).run ⟨file, web⟩ with
      | (result, use) => (result, use.web)

/-- The file can be had, and its content is a text with these entries in UTF-8.  `later` is the
web after the file has been had. -/
def Holds (files : Text → Option Bytes) (web : Web) (url : Text) (lines : List Text)
    (later : Web) : Prop :=
  ∃ text bytes, Text.Lists lines text ∧ Encoding.utf8.encode text = some bytes ∧
    (fetch files url).run web = (.ok bytes, later)

variable {files : Text → Option Bytes} {web later : Web} {url : Text} {lines : List Text}

theorem readEntries_of_fetch {bytes : Bytes} (encoding : Encoding)
    (fetched : (fetch files url).run web = (.ok bytes, later)) :
    (readEntries files encoding url).run web = (ofBytes encoding bytes, later) := by
  change fetch files url web = _ at fetched
  change readEntries files encoding url web = _
  cases opened : File.openUrl files url with
  | error fault =>
      rw [fetch, opened] at fetched
      cases fetched
  | ok file =>
      rw [fetch, opened] at fetched
      rw [readEntries, opened]
      change (match File.read none ⟨file, web⟩ with
        | (result, use) => (result, use.web)) = _ at fetched
      dsimp only
      generalize File.read none ⟨file, web⟩ = outcome at fetched
      obtain ⟨result, use⟩ := outcome
      cases fetched
      rfl

theorem readEntries_of_holds (holds : Holds files web url lines later) :
    (readEntries files .utf8 url).run web = (.ok lines, later) := by
  obtain ⟨text, bytes, listed, written, fetched⟩ := holds
  rw [readEntries_of_fetch .utf8 fetched, ofBytes, Encoding.decode_encode written]
  exact congrArg (fun entries => (Except.ok entries, later)) (Text.entries_of_lists listed)

theorem holds_of_stored {text : Text} {bytes : Bytes}
    (opened : File.openUrl files url = .ok (.stored url (.ofBytes bytes)))
    (written : Encoding.utf8.encode text = some bytes) (listed : Text.Lists lines text) :
    Holds files web url lines web := by
  refine ⟨text, bytes, listed, written, ?_⟩
  change fetch files url web = _
  rw [fetch, opened]
  rfl

end Listing

end Pkgsrc
