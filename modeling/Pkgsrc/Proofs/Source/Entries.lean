/-
# Pkgsrc.Proofs.Source.Entries -- entries are read back from wherever they were put

What a file is read as depends on its bytes only: on those of a stored file, or on the chunks of a
response put together (`Listing.readEntries_of_gives`).  So it is enough to know what bytes are read
as (`Listing.ReadsAs`).

The entries of any text are entries (`Text.isEntry_of_mem_entries`).  The fields between line
boundaries hold none, and no more can come up when white space is taken off them, since that only
takes characters away (`Text.mem_of_mem_strip`); and once is enough (`Text.strip_strip`).  Entries
that are joined by a line break stand one on a line (`Text.lists_join`); where the break is of two
characters, the line between them is empty and does not count.

To write entries back, the encoding has to have their characters: it has all that it ever gave
(`Encoding.toNat_lt_limit_of_decode`).
-/
import Pkgsrc.Proofs.Source.Listing
import Pkgsrc.Proofs.Source.Remote
import Mathlib.Data.List.DropRight

namespace Pkgsrc

set_option autoImplicit false

namespace Text

/-! ## Stripped lines -/

theorem strip_eq_rdropWhile (text : Text) :
    strip text = (text.dropWhile isSpace).rdropWhile isSpace :=
  rfl

theorem mem_of_mem_strip {c : Char} {text : Text} (held : c ∈ strip text) : c ∈ text := by
  have inside : c ∈ text.dropWhile isSpace := (List.rdropWhile_prefix isSpace _).subset held
  exact (List.dropWhile_suffix isSpace).subset inside

/-- White space at the end is taken off a text that does not start with any: its start stays. -/
theorem dropWhile_rdropWhile {text : Text} (start : text.dropWhile isSpace = text) :
    (text.rdropWhile isSpace).dropWhile isSpace = text.rdropWhile isSpace := by
  obtain ⟨off, shape⟩ : text.rdropWhile isSpace <+: text := List.rdropWhile_prefix isSpace text
  cases left : text.rdropWhile isSpace with
  | nil => rfl
  | cons c rest =>
      rw [← shape, left, List.cons_append, List.dropWhile_eq_self_iff] at start
      exact List.dropWhile_cons_of_neg (start (Nat.succ_pos _))

theorem strip_strip (text : Text) : strip (strip text) = strip text := by
  have start := dropWhile_rdropWhile (List.dropWhile_idempotent isSpace text)
  rw [← strip_eq_rdropWhile] at start
  calc strip (strip text)
      = ((strip text).dropWhile isSpace).rdropWhile isSpace := rfl
    _ = (strip text).rdropWhile isSpace := by rw [start]
    _ = strip text := List.rdropWhile_idempotent isSpace _

/-- A text is stripped if neither its first character nor its last is white space. -/
theorem strip_eq_self_iff {text : Text} :
    strip text = text ↔
      (∀ c ∈ text.head?, isSpace c = false) ∧ ∀ c ∈ text.getLast?, isSpace c = false := by
  have stop : text.rdropWhile isSpace = text ↔ ∀ c ∈ text.getLast?, isSpace c = false := by
    induction text using List.reverseRecOn with
    | nil => simp
    | append_singleton front c _ => simp
  rw [← dropWhile_eq_self_iff, ← stop]
  constructor
  · intro stripped
    have started : text.dropWhile isSpace = text := by
      rw [← stripped]
      exact dropWhile_rdropWhile (List.dropWhile_idempotent isSpace text)
    rw [strip_eq_rdropWhile, started] at stripped
    exact ⟨started, stripped⟩
  · rintro ⟨started, stopped⟩
    rw [strip_eq_rdropWhile, started, stopped]

/-- A line that says something, with no white space around it. -/
structure StandsAlone (line : Text) : Prop where
  filled : line ≠ []
  start : ∀ c ∈ line.head?, isSpace c = false
  stop : ∀ c ∈ line.getLast?, isSpace c = false
  unbroken : ∀ c ∈ line, isLineBoundary c = false

theorem isEntry_iff_standsAlone {line : Text} : IsEntry line ↔ StandsAlone line := by
  constructor
  · rintro ⟨filled, stripped, unbroken⟩
    obtain ⟨start, stop⟩ := strip_eq_self_iff.1 stripped
    exact ⟨filled, start, stop, unbroken⟩
  · rintro ⟨filled, start, stop, unbroken⟩
    exact ⟨filled, strip_eq_self_iff.2 ⟨start, stop⟩, unbroken⟩

/-- The entries of a text are lines that are entries as they stand. -/
theorem isEntry_of_mem_entries {text line : Text} (listed : line ∈ entries text) :
    IsEntry line := by
  rw [entries, List.mem_filter, List.mem_map] at listed
  obtain ⟨⟨field, part, rfl⟩, filled⟩ := listed
  refine ⟨of_decide_eq_true filled, strip_strip field, fun c held => ?_⟩
  exact (mem_of_mem_fieldsBy part (mem_of_mem_strip held)).2

/-- The entries of a text hold characters of the text only. -/
theorem mem_of_mem_entries {c : Char} {text line : Text} (listed : line ∈ entries text)
    (held : c ∈ line) : c ∈ text := by
  rw [entries, List.mem_filter, List.mem_map] at listed
  obtain ⟨⟨field, part, rfl⟩, -⟩ := listed
  exact (mem_of_mem_fieldsBy part (mem_of_mem_strip held)).1

/-! ## Entries that are joined -/

/-- What ends a line: a line boundary, or a carriage return and a line feed. -/
def IsBreak (glue : Text) : Prop :=
  (∃ boundary, isLineBoundary boundary = true ∧ glue = [boundary]) ∨ glue = ['\r', '\n']

theorem Lists.cons_break {line glue text : Text} {lines : List Text} (entry : IsEntry line)
    (ends : IsBreak glue) (others : Lists lines text) :
    Lists (line :: lines) (line ++ glue ++ text) := by
  rw [List.append_assoc]
  rcases ends with ⟨boundary, ends, rfl⟩ | rfl
  · exact .cons entry ends others
  · exact .cons entry rfl (.blank rfl others)

theorem lists_join {glue : Text} {lines : List Text} (ends : IsBreak glue)
    (entered : ∀ line ∈ lines, IsEntry line) : Lists lines (join glue lines) := by
  induction lines with
  | nil => exact .nil
  | cons line others ih =>
      obtain ⟨entry, later⟩ := List.forall_mem_cons.1 entered
      cases others with
      | nil => exact .last entry
      | cons next more =>
          rw [join_cons_cons]
          exact .cons_break entry ends (ih later)

theorem mem_join {c : Char} {glue : Text} {texts : List Text} (held : c ∈ join glue texts) :
    c ∈ glue ∨ ∃ text ∈ texts, c ∈ text := by
  induction texts with
  | nil => cases held
  | cons text others ih =>
      cases others with
      | nil => exact Or.inr ⟨text, List.mem_singleton_self text, held⟩
      | cons next more =>
          rw [join_cons_cons, List.mem_append, List.mem_append] at held
          rcases held with (inside | inside) | inside
          · exact Or.inr ⟨text, List.mem_cons_self, inside⟩
          · exact Or.inl inside
          · exact (ih inside).imp_right fun ⟨other, listed, inside⟩ =>
              ⟨other, List.mem_cons_of_mem text listed, inside⟩

end Text

namespace Encoding

/-! ## The characters of an encoding -/

/-- The encoding has the characters whose codes are below this. -/
def limit : Encoding → Nat
  | .utf8 => 0x110000
  | .latin1 => 256
  | .ascii => 128

theorem exists_encode {encoding : Encoding} {text : Text}
    (has : ∀ c ∈ text, c.toNat < encoding.limit) : ∃ bytes, encoding.encode text = some bytes := by
  cases encoding with
  | utf8 => exact ⟨_, rfl⟩
  | latin1 => exact ⟨_, if_pos (by simpa [limit] using has)⟩
  | ascii => exact ⟨_, if_pos (by simpa [limit] using has)⟩

theorem toNat_charOf (byte : UInt8) : (charOf byte).toNat = byte.toNat := by
  have small : byte.toNat < 256 := byte.toNat_lt
  have valid : byte.toNat.isValidChar := Or.inl (by omega)
  rw [charOf, Char.ofNat, dif_pos valid]
  rfl

/-- The text that bytes stand for holds characters of the encoding only. -/
theorem toNat_lt_limit_of_decode {encoding : Encoding} {bytes : Bytes} {text : Text}
    (read : encoding.decode bytes = some text) : ∀ c ∈ text, c.toNat < encoding.limit := by
  cases encoding with
  | utf8 =>
      intro c _
      rcases c.valid with low | ⟨-, high⟩
      · exact Nat.lt_trans low (by decide)
      · exact high
  | latin1 =>
      cases read
      intro c held
      obtain ⟨byte, -, rfl⟩ := List.mem_map.1 held
      rw [toNat_charOf]
      exact byte.toNat_lt
  | ascii =>
      rw [decode] at read
      split at read
      · rename_i low
        cases read
        intro c held
        obtain ⟨byte, inside, rfl⟩ := List.mem_map.1 held
        rw [toNat_charOf]
        have small : byte < 128 := of_decide_eq_true (List.all_eq_true.1 low byte inside)
        exact UInt8.lt_iff_toNat_lt.1 small
      · cases read

theorem newline_lt_limit (encoding : Encoding) : '\n'.toNat < encoding.limit := by
  cases encoding <;> decide

end Encoding

namespace Listing

/-! ## Bytes, wherever they are -/

/-- The file of a URL has this content: it is stored under the path of the URL, or it is remote and
the next response is whole and has the content in its chunks. -/
inductive Gives (files : Text → Option Bytes) (web : Web) (url : Text) : Bytes → Prop where
  | stored {parts : Url} {bytes : Bytes} (isUrl : Url.ofText? url = some parts)
      (scheme : File.schemeOf parts = "file".toList) (held : files parts.path = some bytes) :
      Gives files web url bytes
  | sent {parts : Url} {response : Web.Response} (isUrl : Url.ofText? url = some parts)
      (scheme : File.schemeOf parts = "http".toList ∨ File.schemeOf parts = "https".toList)
      (waits : (Web.responses url web.waiting)[0]? = some response)
      (whole : response.failure = none) : Gives files web url response.chunks.flatten

/-- Wherever these bytes are, a file with them is read as this. -/
def ReadsAs (encoding : Encoding) (bytes : Bytes) (result : Except File.Fault (List Text)) : Prop :=
  ∀ files web url, Gives files web url bytes →
    ((readEntries files encoding url).run web).1 = result

theorem exists_fetch_of_gives {files : Text → Option Bytes} {web : Web} {url : Text}
    {bytes : Bytes} (gives : Gives files web url bytes) :
    ∃ later, (fetch files url).run web = (.ok bytes, later) := by
  change ∃ later, fetch files url web = _
  cases gives with
  | @stored parts _ isUrl scheme held =>
      have opened : File.openUrl files url = .ok (.stored url (.ofBytes bytes)) := by
        simp only [File.openUrl, isUrl, scheme, if_true, File.openPath, held]
      exact ⟨web, by rw [fetch, opened]; rfl⟩
  | @sent parts response isUrl scheme waits whole =>
      have remote : File.schemeOf parts ≠ "file".toList := by
        rcases scheme with scheme | scheme <;> rw [scheme] <;> decide
      have opened : File.openUrl files url = .ok (.remote url none) := by
        simp only [File.openUrl, isUrl, if_neg remote, if_pos scheme]
      have content : web.outcome url 0 = .ok response.chunks.flatten :=
        Web.outcome_eq_ok_iff.2 ⟨response, waits, whole, rfl⟩
      obtain ⟨later, downloaded, -⟩ := Web.exists_download url web
      rw [content] at downloaded
      refine ⟨later, ?_⟩
      rw [fetch, opened]
      dsimp only
      rw [File.read, run_bind, File.buffer_unopened, downloaded]
      rfl

theorem readsAs_ofBytes (encoding : Encoding) (bytes : Bytes) :
    ReadsAs encoding bytes (ofBytes encoding bytes) := by
  intro files web url gives
  obtain ⟨later, fetched⟩ := exists_fetch_of_gives gives
  rw [readEntries_of_fetch encoding fetched]

theorem readsAs_of_lists {encoding : Encoding} {lines : List Text} {text : Text} {bytes : Bytes}
    (listed : Text.Lists lines text) (written : encoding.encode text = some bytes) :
    ReadsAs encoding bytes (.ok lines) := by
  have read : ofBytes encoding bytes = .ok lines := by
    rw [ofBytes, Encoding.decode_encode written]
    exact congrArg Except.ok (Text.entries_of_lists listed)
  exact read ▸ readsAs_ofBytes encoding bytes

/-- What is decoded can be written back one entry on a line, and is read as the same entries. -/
theorem exists_encode_join_entries {encoding : Encoding} {bytes : Bytes} {text : Text}
    (read : encoding.decode bytes = some text) :
    ∃ again, encoding.encode (Text.join ['\n'] text.entries) = some again ∧
      ReadsAs encoding again (.ok text.entries) := by
  have has : ∀ c ∈ Text.join ['\n'] text.entries, c.toNat < encoding.limit := by
    intro c held
    rcases Text.mem_join held with glue | ⟨line, listed, inside⟩
    · obtain rfl : c = '\n' := List.mem_singleton.1 glue
      exact encoding.newline_lt_limit
    · exact Encoding.toNat_lt_limit_of_decode read c (Text.mem_of_mem_entries listed inside)
  obtain ⟨again, written⟩ := Encoding.exists_encode has
  have ends : Text.IsBreak ['\n'] := Or.inl ⟨'\n', rfl, rfl⟩
  have listed : Text.Lists text.entries (Text.join ['\n'] text.entries) :=
    Text.lists_join ends fun line => Text.isEntry_of_mem_entries
  exact ⟨again, written, readsAs_of_lists listed written⟩

/-- **Entries are read back from wherever they were put.**  Two files with the same bytes are read as
the same, whether they are stored or come in chunks.  Lines that stand alone, joined by any line break
and written in an encoding that has all of it, are read as these lines.  Whatever can be decoded is
read as lines that stand alone; these can be written back with a line feed between each two, and are
read as the same lines again. -/
theorem entries_are_read_back (encoding : Encoding) :
    (∀ bytes files web url others elsewhere address, Gives files web url bytes →
      Gives others elsewhere address bytes →
        ((readEntries files encoding url).run web).1 =
          ((readEntries others encoding address).run elsewhere).1) ∧
    (∀ lines glue bytes, (∀ line ∈ lines, Text.StandsAlone line) → Text.IsBreak glue →
      encoding.encode (Text.join glue lines) = some bytes → ReadsAs encoding bytes (.ok lines)) ∧
    (∀ bytes text, encoding.decode bytes = some text →
      ∃ lines again, ReadsAs encoding bytes (.ok lines) ∧ (∀ line ∈ lines, Text.StandsAlone line) ∧
        encoding.encode (Text.join ['\n'] lines) = some again ∧
        ReadsAs encoding again (.ok lines)) := by
  refine ⟨?_, ?_, ?_⟩
  · intro bytes files web url others elsewhere address gives givesAsWell
    rw [readsAs_ofBytes encoding bytes files web url gives,
      readsAs_ofBytes encoding bytes others elsewhere address givesAsWell]
  · intro lines glue bytes alone ends written
    have entered : ∀ line ∈ lines, Text.IsEntry line := fun line inside =>
      Text.isEntry_iff_standsAlone.2 (alone line inside)
    exact readsAs_of_lists (Text.lists_join ends entered) written
  · intro bytes text read
    obtain ⟨again, written, readBack⟩ := exists_encode_join_entries read
    have first : ReadsAs encoding bytes (.ok text.entries) := by
      have result : ofBytes encoding bytes = .ok text.entries := by rw [ofBytes, read]
      exact result ▸ readsAs_ofBytes encoding bytes
    refine ⟨text.entries, again, first, fun line listed => ?_, written, readBack⟩
    exact Text.isEntry_iff_standsAlone.1 (Text.isEntry_of_mem_entries listed)

/-- One response under a URL, cut inside a character of two bytes and between a carriage return and
its line feed. -/
def cutInside : Web :=
  ⟨[("http://h/f".toList, [⟨[[0xC3], [0xA9, 0x0D], [0x0A, 0x61, 0x20, 0x62]], none⟩])], [], #[]⟩

theorem entries_of_cut_response :
    ((readEntries (fun _ => none) .utf8 "http://h/f".toList).run cutInside).1 =
      ((readEntries (fun _ => some [0xC3, 0xA9, 0x0D, 0x0A, 0x61, 0x20, 0x62]) .utf8
        ['f']).run .silent).1 ∧
    ((readEntries (fun _ => none) .utf8 "http://h/f".toList).run cutInside).1 =
      .ok [['é'], ['a', ' ', 'b']] ∧
    ∃ lines again, ReadsAs .utf8 [0xC3, 0xA9, 0x0D, 0x0A, 0x61, 0x20, 0x62] (.ok lines) ∧
      (∀ line ∈ lines, Text.StandsAlone line) ∧
      Encoding.utf8.encode (Text.join ['\n'] lines) = some again ∧
      ReadsAs .utf8 again (.ok lines) := by
  obtain ⟨same, joined, back⟩ := entries_are_read_back .utf8
  have sent : Gives (fun _ => none) cutInside "http://h/f".toList
      [0xC3, 0xA9, 0x0D, 0x0A, 0x61, 0x20, 0x62] :=
    @Gives.sent _ _ _ ⟨"http".toList, "/f".toList⟩
      ⟨[[0xC3], [0xA9, 0x0D], [0x0A, 0x61, 0x20, 0x62]], none⟩ rfl (Or.inl rfl) rfl rfl
  have stored : Gives (fun _ => some [0xC3, 0xA9, 0x0D, 0x0A, 0x61, 0x20, 0x62]) .silent ['f']
      [0xC3, 0xA9, 0x0D, 0x0A, 0x61, 0x20, 0x62] :=
    @Gives.stored _ _ _ ⟨[], ['f']⟩ _ rfl rfl rfl
  have alone : ∀ line ∈ [['é'], ['a', ' ', 'b']], Text.StandsAlone line := by
    intro line listed
    rcases List.mem_pair.1 listed with rfl | rfl
    · exact ⟨by simp, by simp [Text.isSpace], by simp [Text.isSpace], by simp [Text.isLineBoundary]⟩
    · exact ⟨by simp, by simp [Text.isSpace], by simp [Text.isSpace], by simp [Text.isLineBoundary]⟩
  have written : Encoding.utf8.encode (Text.join ['\r', '\n'] [['é'], ['a', ' ', 'b']]) =
      some [0xC3, 0xA9, 0x0D, 0x0A, 0x61, 0x20, 0x62] := by decide
  have read : Encoding.utf8.decode [0xC3, 0xA9, 0x0D, 0x0A, 0x61, 0x20, 0x62] =
      some (Text.join ['\r', '\n'] [['é'], ['a', ' ', 'b']]) := Encoding.decode_encode written
  exact ⟨same _ _ _ _ _ _ _ sent stored,
    joined _ _ _ alone (Or.inr rfl) written _ _ _ sent, back _ _ read⟩

end Listing

end Pkgsrc
