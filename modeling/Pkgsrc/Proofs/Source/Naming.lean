/-
# Pkgsrc.Proofs.Source.Naming -- stored files by their paths

The name of a file is taken for a URL, also where it is a path.  The path of a URL is a part of its
text (`Url.path_sublist`): each reading step leaves the text as it is or makes it shorter, and it
leaves it under a condition on its characters.  All of them together make a plain path (`Url.Plain`),
and these are the texts that are their own paths (`Url.plain_of_path_eq`, `Url.ofText?_of_plain`).

What stands at a place in a tree is named by its segments with slashes between them
(`Tree.file?_join_eq_some_iff`), and no shorter path leads there (`Tree.weight_walk_le`).  So a
stored file is opened by this name if the name is plain, and never if it is not.
-/
import Pkgsrc.Proofs.Source.Listing
import Mathlib.Data.List.TakeWhile
import Mathlib.Data.List.Basic

namespace Pkgsrc

set_option autoImplicit false

namespace Url

/-! ## Texts that are their own paths -/

/-- A path in which nothing has a meaning in a URL but the slashes. -/
structure Plain (text : Text) : Prop where
  /-- It does not start with a blank or a control character. -/
  start : ∀ c ∈ text.head?, isBlank c = false
  undropped : ∀ c ∈ text, isDropped c = false
  /-- What stands before the first colon is no scheme. -/
  schemeless : ':' ∈ text → isScheme (upTo ':' text) = false
  unlocated : ¬ ['/', '/'] <+: text
  noFragment : '#' ∉ text
  noQuery : '?' ∉ text
  /-- There is a slash behind every semicolon. -/
  noParameters : ∀ before after, text = before ++ ';' :: after → '/' ∈ after

variable {text : Text}

theorem clean_sublist (text : Text) : (clean text).Sublist text :=
  List.filter_sublist.trans (List.dropWhile_suffix isBlank).sublist

theorem clean_eq_self_iff :
    clean text = text ↔
      (∀ c ∈ text.head?, isBlank c = false) ∧ ∀ c ∈ text, isDropped c = false := by
  have kept : (text.filter fun c => !isDropped c) = text ↔ ∀ c ∈ text, isDropped c = false := by
    simp [List.filter_eq_self]
  rw [← Text.dropWhile_eq_self_iff, ← kept]
  constructor
  · intro same
    have part : (clean text).Sublist (text.dropWhile isBlank) := List.filter_sublist
    rw [same] at part
    have started : text.dropWhile isBlank = text :=
      (List.dropWhile_suffix isBlank).sublist.antisymm part
    rw [clean, started] at same
    exact ⟨started, same⟩
  · rintro ⟨started, same⟩
    rw [clean, started, same]

theorem splitScheme_eq_of_schemeless (schemeless : ':' ∈ text → isScheme (upTo ':' text) = false) :
    splitScheme text = ([], text) := by
  apply if_neg
  rw [Bool.and_eq_true, List.contains_iff_mem]
  rintro ⟨scheme, colon⟩
  rw [schemeless colon] at scheme
  cases scheme

theorem splitScheme_sublist (text : Text) : (splitScheme text).2.Sublist text := by
  unfold splitScheme
  dsimp only
  split
  · exact List.drop_sublist _ _
  · exact List.Sublist.refl text

theorem splitScheme_snd_eq_self_iff :
    (splitScheme text).2 = text ↔ (':' ∈ text → isScheme (upTo ':' text) = false) := by
  constructor
  · intro same colon
    by_contra scheme
    have cut : (splitScheme text).2 = text.drop ((upTo ':' text).length + 1) := by
      unfold splitScheme
      dsimp only
      rw [if_pos (by simpa [colon] using scheme)]
    have length := congrArg List.length (cut.symm.trans same)
    have filled := List.length_pos_of_mem colon
    rw [List.length_drop] at length
    omega
  · intro schemeless
    rw [splitScheme_eq_of_schemeless schemeless]

theorem splitLocation_eq_of_unlocated (unlocated : ¬ ['/', '/'] <+: text) :
    splitLocation text = ([], text) := by
  unfold splitLocation
  split
  · exact absurd ⟨_, rfl⟩ unlocated
  · rfl

theorem splitLocation_sublist (text : Text) : (splitLocation text).2.Sublist text := by
  unfold splitLocation
  split
  · rename_i rest
    exact (List.dropWhile_suffix _).sublist.trans ((List.sublist_cons_self _ _).trans
      (List.sublist_cons_self _ _))
  · exact List.Sublist.refl text

theorem splitLocation_snd_eq_self_iff :
    (splitLocation text).2 = text ↔ ¬ ['/', '/'] <+: text := by
  constructor
  · rintro same ⟨rest, rfl⟩
    have shorter : (rest.dropWhile fun c => !endsLocation c).length ≤ rest.length :=
      (List.dropWhile_suffix _).length_le
    have length := congrArg List.length same
    simp only [splitLocation, List.cons_append, List.nil_append, List.length_cons] at length
    omega
  · intro unlocated
    rw [splitLocation_eq_of_unlocated unlocated]

theorem upTo_sublist (mark : Char) (text : Text) : (upTo mark text).Sublist text :=
  (List.takeWhile_prefix _).sublist

theorem upTo_eq_self_iff {mark : Char} : upTo mark text = text ↔ mark ∉ text := by
  rw [upTo, List.takeWhile_eq_self_iff]
  simp only [bne_iff_ne, ne_eq]
  exact ⟨fun differs held => differs mark held rfl, fun absent c held same => absent (same ▸ held)⟩

theorem dropParameters_sublist (path : Text) : (dropParameters path).Sublist path := by
  unfold dropParameters
  split
  · exact upTo_sublist ';' path
  · rename_i before last cut
    rw [← Text.append_of_splitLast? cut]
    exact ((upTo_sublist ';' last).cons_cons '/').append_left before

/-- A semicolon that no slash follows is in the last segment. -/
theorem semicolon_mem_last_iff (before : Text) {last : Text} (slashless : '/' ∉ last) :
    ';' ∈ last ↔
      ∃ front after, before ++ '/' :: last = front ++ ';' :: after ∧ '/' ∉ after := by
  constructor
  · intro held
    obtain ⟨front, after, rfl⟩ := List.append_of_mem held
    refine ⟨before ++ '/' :: front, after, by simp, fun slash => slashless ?_⟩
    exact List.mem_append_right front (List.mem_cons_of_mem ';' slash)
  · rintro ⟨front, after, same, unfollowed⟩
    rcases List.append_eq_append_iff.1 same with ⟨middle, rfl, shape⟩ | ⟨middle, rfl, shape⟩
    · cases middle with
      | nil => cases shape
      | cons c rest =>
          obtain ⟨-, rfl⟩ := List.cons.inj shape
          simp
    · cases middle with
      | nil => cases shape
      | cons c rest =>
          obtain ⟨-, rfl⟩ := List.cons.inj shape
          exact absurd (List.mem_append_right rest List.mem_cons_self) unfollowed

theorem dropParameters_eq_self_iff {path : Text} :
    dropParameters path = path ↔
      ∀ before after, path = before ++ ';' :: after → '/' ∈ after := by
  unfold dropParameters
  split
  · rename_i noSlash
    have slashless := Text.splitLast?_eq_none.1 noSlash
    rw [upTo_eq_self_iff]
    constructor
    · rintro absent before after rfl
      exact absurd (List.mem_append_right before List.mem_cons_self) absent
    · intro followed held
      obtain ⟨before, after, rfl⟩ := List.append_of_mem held
      have slash : '/' ∈ after := followed before after rfl
      exact slashless (List.mem_append_right before (List.mem_cons_of_mem ';' slash))
  · rename_i before last cut
    rw [← Text.append_of_splitLast? cut, List.append_cancel_left_eq, List.cons.injEq,
      and_iff_right rfl, upTo_eq_self_iff,
      semicolon_mem_last_iff before (Text.not_mem_of_splitLast? cut)]
    simp only [not_exists, not_and, not_not]

/-! ## The path of a text -/

/-- A path before its parameters are taken off. -/
def wholePath (text : Text) : Text :=
  upTo '?' (upTo '#' (splitLocation (splitScheme (clean text)).2).2)

theorem parts_of_ofText? {url : Url} (isUrl : ofText? text = some url) :
    url.scheme = (splitScheme (clean text)).1 ∧
      url.path =
        if parameterSchemes.contains url.scheme then dropParameters (wholePath text)
        else wholePath text := by
  unfold ofText? at isUrl
  dsimp only at isUrl
  split at isUrl
  · cases isUrl
    exact ⟨rfl, rfl⟩
  · cases isUrl

theorem path_sublist_wholePath {url : Url} (isUrl : ofText? text = some url) :
    url.path.Sublist (wholePath text) := by
  rw [(parts_of_ofText? isUrl).2]
  split
  · exact dropParameters_sublist _
  · exact List.Sublist.refl _

/-- Each step leaves a part of the text. -/
theorem wholePath_sublists (text : Text) :
    (wholePath text).Sublist (upTo '#' (splitLocation (splitScheme (clean text)).2).2) ∧
      (upTo '#' (splitLocation (splitScheme (clean text)).2).2).Sublist
        (splitLocation (splitScheme (clean text)).2).2 ∧
      (splitLocation (splitScheme (clean text)).2).2.Sublist (splitScheme (clean text)).2 ∧
      (splitScheme (clean text)).2.Sublist (clean text) :=
  ⟨upTo_sublist '?' _, upTo_sublist '#' _, splitLocation_sublist _, splitScheme_sublist _⟩

theorem wholePath_sublist (text : Text) : (wholePath text).Sublist text := by
  obtain ⟨unquoted, unmarked, located, schemed⟩ := wholePath_sublists text
  exact unquoted.trans (unmarked.trans (located.trans (schemed.trans (clean_sublist text))))

theorem path_sublist {url : Url} (isUrl : ofText? text = some url) : url.path.Sublist text :=
  (path_sublist_wholePath isUrl).trans (wholePath_sublist text)

/-- A text that is its own path is plain: no step takes anything away. -/
theorem plain_of_path_eq {url : Url} (isUrl : ofText? text = some url) (same : url.path = text) :
    Plain text := by
  obtain ⟨scheme, path⟩ := parts_of_ofText? isUrl
  obtain ⟨unquoted, unmarked, located, schemed⟩ := wholePath_sublists text
  have toWhole := path_sublist_wholePath isUrl
  rw [same] at toWhole path
  -- The whole text is left after the last step, so it is left after each step before it.
  have toMark := toWhole.trans unquoted
  have toLocation := toMark.trans unmarked
  have toScheme := toLocation.trans located
  have whole : wholePath text = text := (wholePath_sublist text).antisymm toWhole
  have cleaned : clean text = text := (clean_sublist text).antisymm (toScheme.trans schemed)
  rw [cleaned] at scheme unmarked located schemed toMark toLocation toScheme
  have schemeless : (splitScheme text).2 = text := schemed.antisymm toScheme
  rw [schemeless] at unmarked located toMark toLocation
  have unlocated : (splitLocation text).2 = text := located.antisymm toLocation
  rw [unlocated] at unmarked toMark
  have noFragment : upTo '#' text = text := unmarked.antisymm toMark
  have noQuery : upTo '?' text = text := by
    rwa [wholePath, cleaned, schemeless, unlocated, noFragment] at whole
  rw [splitScheme_snd_eq_self_iff] at schemeless
  rw [scheme, splitScheme_eq_of_schemeless schemeless, whole] at path
  have noParameters : dropParameters text = text := path.symm
  obtain ⟨start, undropped⟩ := clean_eq_self_iff.1 cleaned
  exact ⟨start, undropped, schemeless, splitLocation_snd_eq_self_iff.1 unlocated,
    upTo_eq_self_iff.1 noFragment, upTo_eq_self_iff.1 noQuery,
    dropParameters_eq_self_iff.1 noParameters⟩

theorem ofText?_of_plain (plain : Plain text) : ofText? text = some ⟨[], text⟩ := by
  have cleaned : clean text = text := clean_eq_self_iff.2 ⟨plain.start, plain.undropped⟩
  have unquoted : upTo '?' (upTo '#' text) = text := by
    rw [upTo_eq_self_iff.2 plain.noFragment, upTo_eq_self_iff.2 plain.noQuery]
  unfold ofText?
  rw [cleaned, splitScheme_eq_of_schemeless plain.schemeless]
  dsimp only
  rw [splitLocation_eq_of_unlocated plain.unlocated]
  dsimp only
  rw [unquoted, dropParameters_eq_self_iff.2 plain.noParameters]
  rfl

end Url

namespace Tree

/-! ## Places and the paths to them -/

/-- A segment that goes on from a directory to what has this name in it. -/
structure IsName (segment : Text) : Prop where
  filled : segment ≠ []
  single : '/' ∉ segment
  notHere : segment ≠ ['.']
  notBack : segment ≠ ['.', '.']

theorem IsName.isIdle_eq {segment : Text} (name : IsName segment) : isIdle segment = false := by
  rw [isIdle, Bool.or_eq_false_iff]
  exact ⟨beq_false_of_ne name.filled, beq_false_of_ne name.notHere⟩

/-- The characters of the segments, and one more for each. -/
def weight : List Text → Nat
  | [] => 0
  | segment :: rest => segment.length + 1 + weight rest

theorem weight_append (front rest : List Text) :
    weight (front ++ rest) = weight front + weight rest := by
  induction front with
  | nil => rw [List.nil_append, weight, Nat.zero_add]
  | cons segment others ih =>
      rw [List.cons_append, weight, weight, ih]
      omega

theorem weight_dropLast_le (place : List Text) : weight place.dropLast ≤ weight place := by
  obtain ⟨last, shape⟩ := List.dropLast_prefix place
  have total := congrArg weight shape
  rw [weight_append] at total
  omega

theorem weight_eq_length_join {place : List Text} (filled : place ≠ []) :
    weight place = (Text.join ['/'] place).length + 1 := by
  induction place with
  | nil => exact absurd rfl filled
  | cons segment others ih =>
      cases others with
      | nil => rfl
      | cons next more =>
          rw [weight, ih (List.cons_ne_nil next more), Text.join_cons_cons]
          simp only [List.length_append, List.length_cons, List.length_nil]
          omega

/-- The segments of a path weigh as much as the path. -/
theorem weight_fields (path : Text) : weight (Text.fields '/' path) = path.length + 1 := by
  have filled : Text.fields '/' path ≠ [] := Text.fieldsBy_ne_nil _ path
  rw [weight_eq_length_join filled, Text.join_fields]

/-- A walk ends at a place that weighs no more than where it started and what it went along. -/
theorem weight_walk_le {tree : Tree} {place segments reached : List Text}
    (walked : tree.walk place segments = some reached) :
    weight reached ≤ weight place + weight segments := by
  induction segments generalizing place with
  | nil =>
      cases walked
      exact Nat.le_add_right _ _
  | cons segment rest ih =>
      rw [weight]
      rw [walk] at walked
      split at walked
      · cases walked
      split at walked
      -- The segment stays where it is.
      · have behind := ih walked
        omega
      split at walked
      · split at walked
        · cases walked
        -- It goes back, to a place that is no heavier.
        · have behind := ih walked
          have back := weight_dropLast_le place
          omega
      -- It goes on, and weighs as much as it adds to the place.
      · have behind := ih walked
        rw [weight_append, weight, weight] at behind
        omega

theorem isDirectory_of_file {tree : Tree} {front : List Text} {segment : Text} {rest : List Text}
    {bytes : Bytes} (held : (front ++ segment :: rest, bytes) ∈ tree.files) :
    tree.isDirectory front = true := by
  rw [isDirectory, Bool.or_eq_true, List.any_eq_true]
  refine Or.inr ⟨_, held, ?_⟩
  rw [Bool.and_eq_true]
  exact ⟨List.isPrefixOf_iff_prefix.2 (List.prefix_append _ _), by simp⟩

/-- The segments of a file's place lead to it from each place on the way. -/
theorem walk_of_file {tree : Tree} {front rest : List Text} {bytes : Bytes}
    (held : (front ++ rest, bytes) ∈ tree.files) (named : ∀ segment ∈ rest, IsName segment) :
    tree.walk front rest = some (front ++ rest) := by
  induction rest generalizing front with
  | nil => rw [walk, List.append_nil]
  | cons segment rest ih =>
      obtain ⟨name, others⟩ := List.forall_mem_cons.1 named
      have shape : front ++ segment :: rest = (front ++ [segment]) ++ rest := by simp
      have directory := isDirectory_of_file held
      rw [shape] at held
      rw [walk, directory, name.isIdle_eq, if_neg name.notBack, shape]
      exact ih held others

theorem mem_files_of_contentAt {tree : Tree} {place : List Text} {bytes : Bytes}
    (content : tree.contentAt place = some bytes) : (place, bytes) ∈ tree.files := by
  rw [contentAt, Option.map_eq_some_iff] at content
  obtain ⟨⟨other, held⟩, found, rfl⟩ := content
  have same : other = place := by simpa using List.find?_some found
  exact same ▸ List.mem_of_find?_eq_some found

theorem head?_join_ne {place : List Text} (filled : place ≠ [])
    (named : ∀ segment ∈ place, IsName segment) : (Text.join ['/'] place).head? ≠ some '/' := by
  cases place with
  | nil => exact absurd rfl filled
  | cons segment others =>
      obtain ⟨name, -⟩ := List.forall_mem_cons.1 named
      cases segment with
      | nil => exact absurd rfl name.filled
      | cons c rest =>
          have first : (Text.join ['/'] ((c :: rest) :: others)).head? = some c := by
            cases others <;> rfl
          rw [first]
          rintro ⟨⟩
          exact name.single List.mem_cons_self

/-- A walk along names ends at the place that they make. -/
theorem eq_append_of_walk {tree : Tree} {front rest reached : List Text}
    (named : ∀ segment ∈ rest, IsName segment) (walked : tree.walk front rest = some reached) :
    reached = front ++ rest := by
  induction rest generalizing front with
  | nil =>
      cases walked
      rw [List.append_nil]
  | cons segment rest ih =>
      obtain ⟨name, others⟩ := List.forall_mem_cons.1 named
      rw [walk, name.isIdle_eq, if_neg name.notBack] at walked
      split at walked
      · cases walked
      · rw [ih others walked, List.append_assoc, List.singleton_append]

/-- A file is named by the segments of its place with slashes between them. -/
theorem file?_join_eq_some_iff {tree : Tree} {place : List Text} {bytes : Bytes}
    (filled : place ≠ []) (named : ∀ segment ∈ place, IsName segment) :
    tree.file? (Text.join ['/'] place) = some bytes ↔ tree.contentAt place = some bytes := by
  have segments : Text.fields '/' (Text.join ['/'] place) = place :=
    (Text.fields_eq_iff filled).2 ⟨fun segment inside => (named segment inside).single, rfl⟩
  have relative : (Text.join ['/'] place).head? ≠ some '/' := head?_join_ne filled named
  rw [file?, if_neg relative, segments]
  constructor
  · intro found
    obtain ⟨reached, walked, content⟩ := Option.bind_eq_some_iff.1 found
    rw [eq_append_of_walk named walked, List.nil_append] at content
    exact content
  · intro content
    have walked : tree.walk [] place = some place :=
      walk_of_file (mem_files_of_contentAt content) named
    rw [walked]
    exact content

/-- A path that is shorter than a file's name leads elsewhere. -/
theorem exists_other_of_file? {tree : Tree} {place : List Text} {path : Text} {bytes : Bytes}
    (filled : place ≠ []) (shorter : path.length < (Text.join ['/'] place).length)
    (held : tree.file? path = some bytes) :
    ∃ other, other ≠ place ∧ tree.contentAt other = some bytes := by
  rw [file?] at held
  split at held
  · cases held
  obtain ⟨reached, walked, content⟩ := Option.bind_eq_some_iff.1 held
  refine ⟨reached, ?_, content⟩
  rintro rfl
  have bound := weight_walk_le walked
  rw [weight_fields, weight_eq_length_join filled] at bound
  have nothing : weight [] = 0 := rfl
  omega

end Tree

namespace File

/-! ## Opening a file by its path -/

theorem openUrl_of_plain {files : Text → Option Bytes} {path : Text} {bytes : Bytes}
    (plain : Url.Plain path) (held : files path = some bytes) :
    openUrl files path = .ok (.stored path (.ofBytes bytes)) := by
  have scheme : schemeOf ⟨[], path⟩ = "file".toList := rfl
  simp only [openUrl, Url.ofText?_of_plain plain, scheme, if_true, openPath, held]

/-- What opens by a name is remote, or it is what the path of the URL names. -/
theorem eq_remote_or_stored_of_openUrl {files : Text → Option Bytes} {name : Text} {file : File}
    (opened : openUrl files name = .ok file) :
    file = .remote name none ∨
      ∃ url bytes, Url.ofText? name = some url ∧ files url.path = some bytes ∧
        file = .stored name (.ofBytes bytes) := by
  unfold openUrl at opened
  split at opened
  · cases opened
  rename_i url isUrl
  dsimp only at opened
  split at opened
  · unfold openPath at opened
    split at opened
    · rename_i bytes held
      cases opened
      exact Or.inr ⟨url, bytes, isUrl, held, rfl⟩
    · cases opened
  split at opened
  · cases opened
    exact Or.inl rfl
  · cases opened

/-- **A stored file is opened by its path if the path is plain, and only then.**  A plain path opens
the file that it names and is read as its content, and the web rests.  The segments of a file's place
with slashes between them name it; if this name is not plain, then what it opens, if anything, is a
remote file or the content of another place. -/
theorem openUrl_opens_named_file_iff_plain {tree : Tree} {path : Text} {bytes : Bytes}
    (found : tree.file? path = some bytes) :
    (Url.Plain path →
      openUrl tree.file? path = .ok (.stored path (.ofBytes bytes)) ∧
      ∀ encoding web, (Listing.readEntries tree.file? encoding path).run web =
        (Listing.ofBytes encoding bytes, web)) ∧
    (∀ place, place ≠ [] → (∀ segment ∈ place, Tree.IsName segment) → path = Text.join ['/'] place →
      tree.contentAt place = some bytes ∧
      (¬ Url.Plain path → ∀ file, openUrl tree.file? path = .ok file →
        file = .remote path none ∨
        ∃ other content, other ≠ place ∧ tree.contentAt other = some content ∧
          file = .stored path (.ofBytes content))) := by
  constructor
  · intro plain
    have opened := openUrl_of_plain plain found
    refine ⟨opened, fun encoding web => ?_⟩
    have fetched : (Listing.fetch tree.file? path).run web = (.ok bytes, web) := by
      show Listing.fetch tree.file? path web = _
      rw [Listing.fetch, opened]
      rfl
    exact Listing.readEntries_of_fetch encoding fetched
  · rintro place filled named rfl
    refine ⟨(Tree.file?_join_eq_some_iff filled named).1 found, fun notPlain file opened => ?_⟩
    rcases eq_remote_or_stored_of_openUrl opened with remote | ⟨url, content, isUrl, held, rfl⟩
    · exact Or.inl remote
    · right
      have differs : url.path ≠ Text.join ['/'] place := fun same =>
        notPlain (Url.plain_of_path_eq isUrl same)
      have part := Url.path_sublist isUrl
      have shorter : url.path.length < (Text.join ['/'] place).length :=
        Nat.lt_of_le_of_ne part.length_le fun same => differs (part.eq_of_length same)
      obtain ⟨other, elsewhere, there⟩ := Tree.exists_other_of_file? filled shorter held
      exact ⟨other, content, elsewhere, there, rfl⟩

/-- A file behind a directory with a semicolon, one with a hash sign, and one that is named by what
stands before the hash sign. -/
def threeNamed : List (Text × Bytes) :=
  [("d;x/e".toList, [0x77]), ("a#1".toList, [0x78]), ("a".toList, [0x79])]

/-- The tree of these files. -/
def threeFiles : Tree :=
  .ofList threeNamed

theorem openUrl_of_semicolon_and_hash :
    openUrl threeFiles.file? "d;x/e".toList = .ok (.stored "d;x/e".toList (.ofBytes [0x77])) ∧
    (Listing.readEntries threeFiles.file? .utf8 "d;x/e".toList).run .silent =
      (Listing.ofBytes .utf8 [0x77], .silent) ∧
    threeFiles.file? "a#1".toList = some [0x78] ∧
    ∀ file, openUrl threeFiles.file? "a#1".toList = .ok file →
      file = .remote "a#1".toList none ∨
      ∃ other content, other ≠ ["a#1".toList] ∧ threeFiles.contentAt other = some content ∧
        file = .stored "a#1".toList (.ofBytes content) := by
  have plain : Url.Plain "d;x/e".toList := @Url.plain_of_path_eq _ ⟨[], "d;x/e".toList⟩ rfl rfl
  have marked : ¬ Url.Plain "a#1".toList := by
    intro plain
    exact plain.noFragment (by decide)
  have named : ∀ segment ∈ ["a#1".toList], Tree.IsName segment := by
    intro segment inside
    obtain rfl := List.mem_singleton.1 inside
    exact ⟨by decide, by decide, by decide, by decide⟩
  have behind : threeFiles.file? "d;x/e".toList = some [0x77] := rfl
  have hashed : threeFiles.file? "a#1".toList = some [0x78] := rfl
  obtain ⟨opened, read⟩ := (openUrl_opens_named_file_iff_plain behind).1 plain
  obtain ⟨-, elsewhere⟩ :=
    (openUrl_opens_named_file_iff_plain hashed).2 ["a#1".toList] (by decide) named rfl
  exact ⟨opened, read .utf8 .silent, hashed, elsewhere marked⟩

/-- A file is passed over for another one because of a hash sign in its name. -/
theorem file_behind_hash_is_passed_over :
    threeFiles.file? "a#1".toList = some [0x78] ∧
    openUrl threeFiles.file? "a#1".toList = .ok (.stored "a#1".toList (.ofBytes [0x79])) ∧
    ((Listing.readEntries threeFiles.file? .utf8 "a#1".toList).run .silent).1 = .ok [['y']] ∧
    ¬ ∀ (files : List (Text × Bytes)) path bytes, (Tree.ofList files).file? path = some bytes →
      openUrl (Tree.ofList files).file? path = .ok (.stored path (.ofBytes bytes)) := by
  have opened : openUrl threeFiles.file? "a#1".toList =
      .ok (.stored "a#1".toList (.ofBytes [0x79])) := rfl
  refine ⟨rfl, opened, ?_, fun always => ?_⟩
  · have written : Encoding.utf8.encode ['y'] = some [0x79] := by decide
    have holds : Listing.Holds threeFiles.file? .silent "a#1".toList [['y']] .silent :=
      Listing.holds_of_stored opened written (.last (Text.isEntry_of_no_space (by decide) rfl))
    rw [Listing.readEntries_of_holds holds]
  · have right := always threeNamed "a#1".toList [0x78] rfl
    cases opened.symm.trans right

end File

end Pkgsrc
