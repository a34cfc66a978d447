/-!
# Pkgsrc.Text -- text as a list of characters

Package names, versions and patterns are texts: lists of Unicode scalar values, so
that a length or a position always counts characters.  This module holds the cuts
that the rest of the library makes in a text:

* `splitLast?` cuts at the last occurrence of a character, and loses nothing but
  that character (`append_of_splitLast?`); what follows it does not hold the
  character again (`not_mem_of_splitLast?`), and there is no other such cut
  (`splitLast?_append_cons`);
* `afterLast?` gives what follows the last occurrence of a text (`afterLast?_append`), if there is
  one (`afterLast?_eq_none_iff`);
* `fieldsBy` cuts at every character of some class and `fields` at every occurrence of one
  character, which no field holds (`mem_of_mem_fieldsBy`); joining the fields gives the text back
  (`join_fields`), and what a text is joined from are its fields (`fields_eq_iff`);
* `stripSuffix?` takes an ending away (`stripSuffix?_eq_some_iff`).
-/

namespace Pkgsrc

set_option autoImplicit false

abbrev Text := List Char

/-- Characters hash as their codes do, and texts as lists of characters. -/
instance hashableChar : Hashable Char := instHashableChar

namespace Text

/-! ## The last occurrence -/

def splitLast? (mark : Char) : Text → Option (Text × Text)
  | [] => none
  | c :: rest =>
    match splitLast? mark rest with
    | some (before, after) => some (c :: before, after)
    | none => if c = mark then some ([], rest) else none

theorem splitLast?_eq_none {mark : Char} {text : Text} :
    splitLast? mark text = none ↔ mark ∉ text := by
  induction text with
  | nil => simp [splitLast?]
  | cons c rest ih =>
    cases found : splitLast? mark rest with
    | some cut =>
      have held : mark ∈ rest := by
        by_cases held : mark ∈ rest
        · exact held
        · rw [ih.2 held] at found; cases found
      simp [splitLast?, found, held]
    | none =>
      have absent : mark ∉ rest := ih.1 found
      by_cases same : c = mark
      · simp [splitLast?, found, same]
      · simp [splitLast?, found, same, absent, Ne.symm same]

/-- Nothing is lost in the cut but the mark itself. -/
theorem append_of_splitLast? {mark : Char} {text before after : Text}
    (cut : splitLast? mark text = some (before, after)) :
    before ++ mark :: after = text := by
  induction text generalizing before with
  | nil => simp [splitLast?] at cut
  | cons c rest ih =>
    cases found : splitLast? mark rest with
    | some inner =>
      simp only [splitLast?, found, Option.some.injEq, Prod.mk.injEq] at cut
      obtain ⟨rfl, rfl⟩ := cut
      simp [ih found]
    | none =>
      by_cases same : c = mark
      · simp [splitLast?, found, same] at cut
        simp [cut, same]
      · simp [splitLast?, found, same] at cut

/-- The cut is the last one: no mark follows it. -/
theorem not_mem_of_splitLast? {mark : Char} {text before after : Text}
    (cut : splitLast? mark text = some (before, after)) : mark ∉ after := by
  induction text generalizing before with
  | nil => simp [splitLast?] at cut
  | cons c rest ih =>
    cases found : splitLast? mark rest with
    | some inner =>
      simp only [splitLast?, found, Option.some.injEq, Prod.mk.injEq] at cut
      obtain ⟨-, rfl⟩ := cut
      exact ih found
    | none =>
      by_cases same : c = mark
      · simp [splitLast?, found, same] at cut
        rw [← cut.2]
        exact splitLast?_eq_none.1 found
      · simp [splitLast?, found, same] at cut

theorem splitLast?_append_cons {mark : Char} {after : Text} (absent : mark ∉ after)
    (before : Text) : splitLast? mark (before ++ mark :: after) = some (before, after) := by
  induction before with
  | nil => simp [splitLast?, splitLast?_eq_none.2 absent]
  | cons c before ih => simp [splitLast?, ih]

def afterLast? (needle : Text) : Text → Option Text
  | [] => if needle = [] then some [] else none
  | c :: rest =>
    match afterLast? needle rest with
    | some after => some after
    | none =>
      if needle.isPrefixOf (c :: rest) then some ((c :: rest).drop needle.length) else none

theorem afterLast?_eq_none_iff {needle text : Text} :
    afterLast? needle text = none ↔ ¬ needle <:+: text := by
  induction text with
  | nil => by_cases empty : needle = [] <;> simp [afterLast?, empty]
  | cons c rest ih =>
    rw [List.infix_cons_iff, not_or, ← ih, afterLast?]
    cases afterLast? needle rest with
    | some after => simp
    | none => simp

/-- An occurrence is the last one if the text does not occur again behind its first character. -/
theorem afterLast?_append {c : Char} {needle after : Text}
    (last : ¬ c :: needle <:+: needle ++ after) (before : Text) :
    afterLast? (c :: needle) (before ++ (c :: needle ++ after)) = some after := by
  induction before with
  | nil => simp [afterLast?, afterLast?_eq_none_iff.2 last]
  | cons d before ih =>
    rw [List.cons_append, afterLast?, ih]

/-! ## Fields -/

def fieldsBy (isMark : Char → Bool) : Text → List Text
  | [] => [[]]
  | c :: rest =>
    if isMark c then [] :: fieldsBy isMark rest
    else
      match fieldsBy isMark rest with
      | [] => [[c]]
      | field :: others => (c :: field) :: others

def fields (mark : Char) (text : Text) : List Text :=
  fieldsBy (· == mark) text

theorem fieldsBy_ne_nil (isMark : Char → Bool) (text : Text) : fieldsBy isMark text ≠ [] := by
  cases text with
  | nil => simp [fieldsBy]
  | cons c rest =>
    by_cases marked : isMark c
    · simp [fieldsBy, marked]
    · simp only [fieldsBy, marked, Bool.false_eq_true, if_false]
      cases fieldsBy isMark rest <;> simp

theorem fieldsBy_append_cons {isMark : Char → Bool} {mark : Char} (marked : isMark mark = true)
    (before after : Text) :
    fieldsBy isMark (before ++ mark :: after) = fieldsBy isMark before ++ fieldsBy isMark after := by
  induction before with
  | nil => simp [fieldsBy, marked]
  | cons c rest ih =>
    by_cases first : isMark c
    · simp [fieldsBy, first, ih]
    · cases inner : fieldsBy isMark rest with
      | nil => exact absurd inner (fieldsBy_ne_nil isMark rest)
      | cons field others => simp [fieldsBy, first, ih, inner]

theorem fieldsBy_of_unmarked {isMark : Char → Bool} {text : Text}
    (unmarked : ∀ c ∈ text, isMark c = false) : fieldsBy isMark text = [text] := by
  induction text with
  | nil => rfl
  | cons c rest ih =>
    obtain ⟨first, others⟩ := List.forall_mem_cons.1 unmarked
    rw [fieldsBy, if_neg (by simp [first]), ih others]

theorem fields_of_not_mem {mark : Char} {text : Text} (absent : mark ∉ text) :
    fields mark text = [text] :=
  fieldsBy_of_unmarked fun _ held => beq_false_of_ne fun same => absent (same ▸ held)

theorem fields_append_cons {mark : Char} {before : Text} (absent : mark ∉ before) (after : Text) :
    fields mark (before ++ mark :: after) = before :: fields mark after := by
  have first : fieldsBy (· == mark) before = [before] := fields_of_not_mem absent
  rw [fields, @fieldsBy_append_cons (· == mark) mark (beq_self_eq_true mark), first]
  rfl

theorem mem_of_mem_fieldsBy {isMark : Char → Bool} {c : Char} {text field : Text}
    (part : field ∈ fieldsBy isMark text) (held : c ∈ field) : c ∈ text ∧ isMark c = false := by
  induction text generalizing field with
  | nil =>
    obtain rfl : field = [] := by simpa [fieldsBy] using part
    cases held
  | cons first rest ih =>
    cases inner : fieldsBy isMark rest with
    | nil => exact absurd inner (fieldsBy_ne_nil isMark rest)
    | cons next others =>
      rw [inner] at ih
      by_cases marked : isMark first
      · have later : field = [] ∨ field ∈ next :: others := by
          simpa [fieldsBy, marked, inner] using part
        rcases later with rfl | later
        · cases held
        · exact ⟨List.mem_cons_of_mem _ (ih later held).1, (ih later held).2⟩
      · have cut : field = first :: next ∨ field ∈ others := by
          simpa [fieldsBy, marked, inner] using part
        rcases cut with rfl | later
        · rcases List.mem_cons.1 held with rfl | held
          · exact ⟨List.mem_cons_self, Bool.eq_false_iff.2 marked⟩
          · obtain ⟨inside, differs⟩ := ih List.mem_cons_self held
            exact ⟨List.mem_cons_of_mem _ inside, differs⟩
        · obtain ⟨inside, differs⟩ := ih (List.mem_cons_of_mem _ later) held
          exact ⟨List.mem_cons_of_mem _ inside, differs⟩

theorem mem_of_mem_fields {mark c : Char} {text field : Text} (part : field ∈ fields mark text)
    (held : c ∈ field) : c ∈ text ∧ c ≠ mark :=
  ⟨(mem_of_mem_fieldsBy part held).1, ne_of_beq_false (mem_of_mem_fieldsBy part held).2⟩

/-- The texts, one after the other, with `glue` between each two. -/
def join (glue : Text) : List Text → Text
  | [] => []
  | [text] => text
  | text :: others => text ++ glue ++ join glue others

theorem join_cons_cons (glue first second : Text) (others : List Text) :
    join glue (first :: second :: others) = first ++ glue ++ join glue (second :: others) :=
  rfl

/-- Joining the fields gives the text back. -/
theorem join_fields (mark : Char) (text : Text) : join [mark] (fields mark text) = text := by
  unfold fields
  induction text with
  | nil => simp [fieldsBy, join]
  | cons c rest ih =>
    cases inner : fieldsBy (· == mark) rest with
    | nil => exact absurd inner (fieldsBy_ne_nil _ rest)
    | cons field others =>
      rw [inner] at ih
      by_cases same : c = mark
      · simp [fieldsBy, same, inner, join, ih]
      · cases others with
        | nil => simpa [fieldsBy, same, inner, join] using ih
        | cons next more => simpa [fieldsBy, same, inner, join] using ih

/-- The parts that a text is joined from are its fields if none of them holds the mark. -/
theorem fields_eq_iff {mark : Char} {text : Text} {parts : List Text} (nonempty : parts ≠ []) :
    fields mark text = parts ↔ (∀ part ∈ parts, mark ∉ part) ∧ text = join [mark] parts := by
  constructor
  · rintro rfl
    exact ⟨fun part inside held => (mem_of_mem_fields inside held).2 rfl,
      (join_fields mark text).symm⟩
  · rintro ⟨free, rfl⟩
    induction parts with
    | nil => exact absurd rfl nonempty
    | cons part others ih =>
      obtain ⟨first, later⟩ := List.forall_mem_cons.1 free
      cases others with
      | nil => exact fields_of_not_mem first
      | cons next more =>
        rw [join, List.append_assoc, List.singleton_append, fields_append_cons first,
          ih (List.cons_ne_nil next more) later]
        simp

/-! ## Endings -/

def stripSuffix? (ending text : Text) : Option Text :=
  if ending.isSuffixOf text then some (text.take (text.length - ending.length)) else none

theorem stripSuffix?_eq_some_iff {ending text start : Text} :
    stripSuffix? ending text = some start ↔ start ++ ending = text := by
  unfold stripSuffix?
  constructor
  · intro h
    split at h
    · rename_i ends
      obtain ⟨front, rfl⟩ := List.isSuffixOf_iff_suffix.1 ends
      simp at h
      rw [h]
    · simp at h
  · rintro rfl
    simp [List.isSuffixOf_iff_suffix]

/-- Whether nothing but one line break, or nothing at all, is left of a text. -/
def atEnd (rest : Text) : Bool :=
  rest == [] || rest == ['\n']

end Text

end Pkgsrc
