/-
# Pkgsrc.Proofs.Braces.Cut -- a text is cut at its first group in one way

The first group of a text is told by two positions and by the alternatives between them
(`Braces.CutsAt`): no brace stands in front, the alternatives are written with commas between
them, each of them is complete and keeps its commas inside its own groups, and braces are balanced
behind.  A text has at most one such cut, and the search for the first group finds it
(`firstGroup_of_cutsAt`, `cutsAt_of_firstGroup`).

The search needs two scans.  The first one sees that every brace has a partner; so the second one,
which counts open braces up to the end of the group, comes to a closing brace before the text ends
(`Body.read?_of_balanced`).

An alternative in the place of its group takes an opening brace away.  So reading a pattern, which
goes on with the texts so made, comes to an end (`Pattern.wellFounded_leadsTo`).
-/
import Pkgsrc.Pattern.Parse
import Pkgsrc.Proofs.Braces.Balance

namespace Pkgsrc

set_option autoImplicit false

namespace Braces

/-! ## Commas -/

/-- Every comma stands inside a group: more braces are opened than closed before it. -/
def CommasInside (text : Text) : Prop :=
  ∀ front behind, front ++ ',' :: behind = text → front.count '}' < front.count '{'

theorem commasInside_nil : CommasInside [] := by
  intro front behind whole
  simp at whole

theorem commasInside_cons_iff {c : Char} {text : Text} (notOpening : c ≠ '{')
    (notClosing : c ≠ '}') : CommasInside (c :: text) ↔ c ≠ ',' ∧ CommasInside text := by
  constructor
  · intro commas
    constructor
    · rintro rfl
      simpa using commas [] text rfl
    · intro front behind whole
      have counted := commas (c :: front) behind (congrArg (c :: ·) whole)
      rwa [List.count_cons_of_ne notOpening, List.count_cons_of_ne notClosing] at counted
  · rintro ⟨noComma, commas⟩ front behind whole
    cases front with
    | nil => exact absurd (List.cons.inj whole).1.symm noComma
    | cons first front =>
        obtain ⟨rfl, rest⟩ := List.cons.inj whole
        rw [List.count_cons_of_ne notOpening, List.count_cons_of_ne notClosing]
        exact commas front behind rest

/-- Of a group and what follows it, only the commas behind the group matter. -/
theorem commasInside_group_iff {inner text : Text} (balanced : Balanced inner) :
    CommasInside ('{' :: (inner ++ '}' :: text)) ↔ CommasInside text := by
  have opening (front : Text) :
      ('{' :: (inner ++ '}' :: front)).count '{' = inner.count '{' + 1 + front.count '{' := by
    simp
    omega
  have closing (front : Text) :
      ('{' :: (inner ++ '}' :: front)).count '}' = inner.count '}' + 1 + front.count '}' := by
    simp
    omega
  constructor
  · intro commas front behind whole
    have counted := commas ('{' :: (inner ++ '}' :: front)) behind (by simp [← whole])
    rw [opening, closing, balanced.closed] at counted
    omega
  · intro commas front behind whole
    cases front with
    | nil => simp at whole
    | cons first front =>
        obtain ⟨rfl, inside⟩ := List.cons.inj whole
        rcases List.append_eq_append_iff.1 inside with ⟨later, rfl, -⟩ | ⟨past, rfl, rest⟩
        · -- The comma stands in the group, which is still open.
          have closable := balanced.closable front (List.prefix_append front later)
          simp
          omega
        · cases past with
          | nil => simp at rest
          | cons brace past =>
              obtain ⟨rfl, behindGroup⟩ := List.cons.inj rest
              have counted := commas past behind behindGroup.symm
              rw [opening, closing, balanced.closed]
              omega

theorem Choices.balanced {choices : Choices} (proper : choices.Proper) : Balanced choices.text := by
  have scanned := choices.unpairedFrom_text proper 0 [] []
  rw [List.append_nil] at scanned
  exact unpaired?_eq_none_iff.1 scanned

/-- An alternative keeps its commas inside its own groups. -/
theorem Sequence.proper_inside_iff {tree : Sequence} (proper : tree.Proper false) :
    tree.Proper true ↔ CommasInside tree.text := by
  match tree with
  | .done => exact iff_of_true trivial commasInside_nil
  | .char c rest =>
      obtain ⟨notOpening, notClosing, -, others⟩ := proper
      rw [Sequence.text, commasInside_cons_iff notOpening notClosing,
        ← rest.proper_inside_iff others]
      simp [Sequence.Proper, notOpening, notClosing]
  | .group choices rest =>
      rw [Sequence.text, commasInside_group_iff (Choices.balanced proper.1),
        ← rest.proper_inside_iff proper.2]
      exact and_iff_right proper.1

/-! ## Alternatives -/

/-- A text that can stand as an alternative of a group. -/
structure IsAlternative (text : Text) : Prop where
  filled : text ≠ []
  balanced : Balanced text
  commas : CommasInside text

theorem isAlternative_iff_exists_tree {text : Text} :
    IsAlternative text ↔ text ≠ [] ∧ ∃ tree : Sequence, tree.Proper true ∧ tree.text = text := by
  constructor
  · rintro ⟨filled, balanced, commas⟩
    obtain ⟨tree, proper, rfl⟩ := balanced_iff_exists_tree.1 balanced
    exact ⟨filled, tree, (Sequence.proper_inside_iff proper).2 commas, rfl⟩
  · rintro ⟨filled, tree, proper, rfl⟩
    exact ⟨filled, balanced_iff_exists_tree.2 ⟨tree, proper.outside, rfl⟩,
      (Sequence.proper_inside_iff proper.outside).1 proper⟩

theorem Choices.text_eq_join (choices : Choices) :
    choices.text = Text.join [','] (choices.toList.map Sequence.text) := by
  match choices with
  | .last only => rfl
  | .more first others =>
      obtain ⟨next, more, shape⟩ := List.exists_cons_of_ne_nil others.toList_ne_nil
      rw [Choices.text, others.text_eq_join, Choices.toList, List.map_cons, shape, List.map_cons,
        Text.join_cons_cons]
      simp

theorem exists_choices_of_alternatives {alternatives : List Text} (some : alternatives ≠ [])
    (each : ∀ alternative ∈ alternatives, IsAlternative alternative) :
    ∃ choices : Choices, choices.Proper ∧ choices.toList.map Sequence.text = alternatives := by
  induction alternatives with
  | nil => exact absurd rfl some
  | cons alternative others ih =>
      obtain ⟨first, later⟩ := List.forall_mem_cons.1 each
      obtain ⟨-, tree, proper, rfl⟩ := isAlternative_iff_exists_tree.1 first
      cases others with
      | nil => exact ⟨.last tree, proper, rfl⟩
      | cons next more =>
          obtain ⟨choices, others, texts⟩ := ih (List.cons_ne_nil next more) later
          exact ⟨.more tree choices, ⟨proper, others⟩, congrArg (tree.text :: ·) texts⟩

/-! ## The cut -/

/-- The first group of a text stands between these positions and has these alternatives. -/
structure CutsAt (text : Text) (start stop : Nat) (alternatives : List Text) : Prop where
  opening : text[start]? = some '{'
  first : '{' ∉ text.take start ∧ '}' ∉ text.take start
  within : stop ≤ text.length
  written : (text.take stop).drop start = '{' :: (Text.join [','] alternatives ++ ['}'])
  alternative : ∀ alternative ∈ alternatives, IsAlternative alternative
  behind : Balanced (text.drop stop)

variable {text : Text} {start stop : Nat} {alternatives : List Text} {group : Group}

/-- A cut loses nothing. -/
theorem CutsAt.text_eq (cut : CutsAt text start stop alternatives) :
    text.take start ++ '{' :: (Text.join [','] alternatives ++ '}' :: text.drop stop) = text := by
  have inOrder : start ≤ stop := by
    have longer := congrArg List.length cut.written
    simp only [List.length_drop, List.length_take, List.length_cons] at longer
    omega
  have front : text.take start ++ (text.take stop).drop start = text.take stop := by
    have cutAgain := List.take_append_drop start (text.take stop)
    rwa [List.take_take, Nat.min_eq_left inOrder] at cutAgain
  calc text.take start ++ '{' :: (Text.join [','] alternatives ++ '}' :: text.drop stop)
      = text.take start ++ (text.take stop).drop start ++ text.drop stop := by
        rw [cut.written]
        simp
    _ = text := by rw [front, List.take_append_drop]

/-- What a cut makes of a text is the only tree of it. -/
theorem CutsAt.exists_tree (cut : CutsAt text start stop alternatives) (some : alternatives ≠ []) :
    ∃ choices rest, (Sequence.grouped (text.take start) choices rest).Proper false ∧
      (Sequence.grouped (text.take start) choices rest).text = text ∧
      choices.toList.map Sequence.text = alternatives ∧ rest.text = text.drop stop := by
  obtain ⟨choices, proper, texts⟩ := exists_choices_of_alternatives some cut.alternative
  obtain ⟨rest, others, written⟩ := balanced_iff_exists_tree.1 cut.behind
  refine ⟨choices, rest, Sequence.proper_grouped_iff.2 ⟨cut.first, proper, others⟩, ?_, texts,
    written⟩
  rw [Sequence.text_grouped, choices.text_eq_join, texts, written]
  exact cut.text_eq

/-- The search finds what a cut says. -/
theorem firstGroup_of_cutsAt (cut : CutsAt text start stop alternatives)
    (some : alternatives ≠ []) :
    firstGroup text = .ok (.some ⟨text.take start, alternatives, text.drop stop⟩) := by
  obtain ⟨choices, rest, proper, written, texts, behind⟩ := cut.exists_tree some
  have nonempty : ∀ choice ∈ choices.toList, choice.text ≠ [] := by
    intro choice held
    rw [← texts] at cut
    exact (cut.alternative _ (List.mem_map_of_mem held)).filled
  have found := firstGroup_text_of_group proper nonempty
  rwa [written, texts, behind] at found

theorem firstGroup_ne_some_of_cutsAt_nil (cut : CutsAt text start stop []) (group : Group) :
    firstGroup text ≠ .ok (some group) := by
  obtain ⟨rest, others, written⟩ := balanced_iff_exists_tree.1 cut.behind
  have proper : (Sequence.grouped (text.take start) (.last .done) rest).Proper false :=
    Sequence.proper_grouped_iff.2 ⟨cut.first, trivial, others⟩
  have whole : (Sequence.grouped (text.take start) (.last .done) rest).text = text := by
    rw [Sequence.text_grouped, written]
    exact cut.text_eq
  obtain ⟨position, failed⟩ := firstGroup_text_of_empty proper
    ⟨.done, List.mem_singleton_self _, rfl⟩
  rw [whole] at failed
  simp [failed]

/-- A group that is found is a cut. -/
theorem cutsAt_of_firstGroup (found : firstGroup text = .ok (some group)) :
    CutsAt text group.start (group.stop text) group.alternatives ∧
      text.take group.start = group.before ∧ text.drop (group.stop text) = group.after := by
  obtain ⟨tree, proper, rfl⟩ := exists_proper_of_firstGroup found
  rcases tree.plain_or_grouped with ⟨letters, rfl⟩ | ⟨before, choices, rest, rfl⟩
  · rw [Sequence.text_plain, firstGroup_text_of_plain proper] at found
    cases found
  · obtain ⟨bare, choicesProper, restProper⟩ := Sequence.proper_grouped_iff.1 proper
    have nonempty : ∀ choice ∈ choices.toList, choice.text ≠ [] := by
      intro choice held nothing
      obtain ⟨position, failed⟩ := firstGroup_text_of_empty proper ⟨choice, held, nothing⟩
      cases found.symm.trans failed
    obtain rfl : group = ⟨before, choices.toList.map Sequence.text, rest.text⟩ :=
      Option.some.inj (Except.ok.inj (found.symm.trans (firstGroup_text_of_group proper nonempty)))
    have whole : (Sequence.grouped before choices rest).text =
        (before ++ '{' :: (choices.text ++ ['}'])) ++ rest.text := by
      rw [Sequence.text_grouped]
      simp
    have stop : Group.stop ⟨before, choices.toList.map Sequence.text, rest.text⟩
        (Sequence.grouped before choices rest).text =
          (before ++ '{' :: (choices.text ++ ['}'])).length := by
      rw [Group.stop, whole, List.length_append, Nat.add_sub_cancel]
    have front : (Sequence.grouped before choices rest).text.take before.length = before := by
      rw [whole, List.append_assoc, List.take_left]
    have behind : (Sequence.grouped before choices rest).text.drop
        (before ++ '{' :: (choices.text ++ ['}'])).length = rest.text := by
      rw [whole, List.drop_left]
    rw [stop]
    refine ⟨⟨?_, ?_, ?_, ?_, ?_, ?_⟩, front, behind⟩
    · rw [Group.start, Sequence.text_grouped]
      simp
    · rwa [Group.start, front]
    · rw [whole]
      exact (List.prefix_append _ rest.text).length_le
    · rw [Group.start, whole, List.take_left, List.drop_left, choices.text_eq_join]
    · intro alternative held
      obtain ⟨choice, inside, rfl⟩ := List.mem_map.1 held
      exact isAlternative_iff_exists_tree.2 ⟨nonempty choice inside, choice,
        Choices.proper_iff.1 choicesProper choice inside, rfl⟩
    · rw [behind]
      exact balanced_iff_exists_tree.2 ⟨rest, restProper, rfl⟩

/-- No other cut is possible where a group is found. -/
theorem CutsAt.eq_of_firstGroup (cut : CutsAt text start stop alternatives)
    (found : firstGroup text = .ok (some group)) :
    start = group.start ∧ stop = group.stop text ∧ alternatives = group.alternatives := by
  have some : alternatives ≠ [] := by
    rintro rfl
    exact firstGroup_ne_some_of_cutsAt_nil cut group found
  obtain rfl : group = ⟨text.take start, alternatives, text.drop stop⟩ :=
    Option.some.inj (Except.ok.inj (found.symm.trans (firstGroup_of_cutsAt cut some)))
  have startInside : start < text.length := (List.getElem?_eq_some_iff.1 cut.opening).1
  have stopInside := cut.within
  refine ⟨?_, ?_, rfl⟩
  · rw [Group.start, List.length_take, Nat.min_eq_left startInside.le]
  · rw [Group.stop, List.length_drop]
    omega

/-! ## The scan of the group -/

/-- Cut what follows an opening brace as `read` does, but give nothing when the text ends before
the group. -/
def Body.read? : Nat → Text → Option Body
  | _, [] => none
  | depth, c :: rest =>
    if c = '{' then (read? (depth + 1) rest).map (push c)
    else if c = '}' then
      match depth with
      | 0 => some ⟨[], [], rest⟩
      | outer + 1 => (read? outer rest).map (push c)
    else if c = ',' ∧ depth = 0 then (read? 0 rest).map cut
    else (read? depth rest).map (push c)

theorem Body.read_of_read? {depth : Nat} {text : Text} {body : Body}
    (found : read? depth text = some body) : read depth text = body := by
  fun_induction read? depth text generalizing body with
  | case1 => cases found
  | case2 depth rest ih =>
      obtain ⟨inner, inside, rfl⟩ := Option.map_eq_some_iff.1 found
      simp only [read, if_true, ih inside]
  | case3 rest =>
      cases found
      rfl
  | case4 rest outer notOpening ih =>
      obtain ⟨inner, inside, rfl⟩ := Option.map_eq_some_iff.1 found
      rw [← ih inside]
      rfl
  | case5 depth c rest opens closes ends ih =>
      obtain ⟨inner, inside, rfl⟩ := Option.map_eq_some_iff.1 found
      simp only [read, if_neg opens, if_neg closes, if_pos ends, ih inside]
  | case6 depth c rest opens closes goesOn ih =>
      obtain ⟨inner, inside, rfl⟩ := Option.map_eq_some_iff.1 found
      simp only [read, if_neg opens, if_neg closes, if_neg goesOn, ih inside]

theorem unclosed_other_iff {depth : Nat} {c : Char} {rest : Text} (notOpening : c ≠ '{')
    (notClosing : c ≠ '}') : Unclosed depth (c :: rest) ↔ Unclosed depth rest := by
  rw [unclosed_cons_iff, Unclosed]
  simp only [List.count_cons_of_ne notOpening, List.count_cons_of_ne notClosing]

/-- The scan runs off the end of the text when nothing closes the group. -/
theorem Body.read?_eq_none_iff {depth : Nat} {text : Text} :
    read? depth text = none ↔ Unclosed depth text := by
  fun_induction read? depth text with
  | case1 => exact iff_of_true rfl fun front start => by simp [List.prefix_nil.1 start]
  | case2 depth rest ih =>
      rw [Option.map_eq_none_iff, ih, unclosed_cons_iff, Unclosed]
      simp [Nat.add_assoc, Nat.add_comm 1]
  | case3 rest notOpening =>
      refine iff_of_false (by simp) fun unclosed => ?_
      have alone := unclosed ['}'] (List.cons_prefix_cons.2 ⟨rfl, List.nil_prefix⟩)
      simp at alone
  | case4 rest outer notOpening ih =>
      rw [Option.map_eq_none_iff, ih, unclosed_cons_iff, Unclosed]
      simp [Nat.add_right_comm outer 1]
  | case5 depth c rest opens closes ends ih =>
      rw [Option.map_eq_none_iff, ih, unclosed_other_iff opens closes, ends.2]
  | case6 depth c rest opens closes goesOn ih =>
      rw [Option.map_eq_none_iff, ih, unclosed_other_iff opens closes]

/-- **Where braces are balanced the scan of the first group comes to its end.** -/
theorem Body.read?_of_balanced {before inside : Text} (absent : '{' ∉ before)
    (balanced : Balanced (before ++ '{' :: inside)) :
    read? 0 inside = some (read 0 inside) := by
  cases found : read? 0 inside with
  | some body => rw [read_of_read? found]
  | none =>
      -- The braces of the inside would all be closed in it, and one more is.
      have few := read?_eq_none_iff.1 found inside List.prefix_rfl
      have many := balanced.closed
      have none : before.count '}' ≤ before.count '{' :=
        balanced.closable before (List.prefix_append before _)
      rw [List.count_eq_zero.2 absent] at none
      simp only [List.count_append, List.count_cons, List.count_eq_zero.2 absent] at many
      simp at many
      omega

end Braces

namespace Pattern

open Braces

/-! ## The first group of a pattern -/

theorem firstGroup_eq_ok_iff {raw : Text} {found : Option Group} :
    firstGroup raw = .ok found ↔ Braces.firstGroup raw = .ok found := by
  unfold firstGroup
  cases Braces.firstGroup raw <;> simp [Except.mapError]

/-- A pattern has no group when it has no braces. -/
theorem firstGroup_eq_none_iff {raw : Text} :
    firstGroup raw = .ok none ↔ '{' ∉ raw ∧ '}' ∉ raw := by
  rw [firstGroup_eq_ok_iff]
  exact ⟨no_braces_of_firstGroup,
    fun absent => firstGroup_text_of_plain (Sequence.proper_plain_iff.2 absent)⟩

/-- To read the one text is to read the other, which has an alternative in the place of the first
group. -/
def LeadsTo (raw other : Text) : Prop :=
  ∃ group, firstGroup raw = .ok (some group) ∧
    ∃ alternative ∈ group.alternatives, group.around alternative = other

theorem count_lt_of_leadsTo {raw other : Text} (leads : LeadsTo raw other) :
    other.count '{' < raw.count '{' := by
  obtain ⟨group, found, alternative, held, rfl⟩ := leads
  exact count_around_lt (firstGroup_eq_ok_iff.1 found) held

/-- Reading comes to an end. -/
theorem wellFounded_leadsTo : WellFounded fun other raw => LeadsTo raw other :=
  Subrelation.wf count_lt_of_leadsTo (InvImage.wf (List.count '{') Nat.lt_wfRel.wf)

/-- **The first group of a pattern is the only cut of it.**  The group that is found stands between
two positions, and no other positions and alternatives make a cut; where there is a cut, a group is
found, and none is found where there are no braces.  The scan for its end stays in the text, and
the texts that its alternatives make have fewer opening braces, so that there is an end to them. -/
theorem firstGroup_is_only_cut (raw : Text) :
    (∀ group, firstGroup raw = .ok (some group) →
      CutsAt raw group.start (group.stop raw) group.alternatives ∧
      (∀ start stop alternatives, CutsAt raw start stop alternatives →
        start = group.start ∧ stop = group.stop raw ∧ alternatives = group.alternatives) ∧
      (raw.take group.start = group.before ∧ raw.drop (group.stop raw) = group.after) ∧
      ∀ alternative ∈ group.alternatives, (group.around alternative).count '{' < raw.count '{') ∧
    (∀ start stop alternatives, CutsAt raw start stop alternatives → alternatives ≠ [] →
      ∃ group, firstGroup raw = .ok (some group)) ∧
    (firstGroup raw = .ok none ↔ '{' ∉ raw ∧ '}' ∉ raw) ∧
    (∀ before inside, before ++ '{' :: inside = raw → '{' ∉ before → Balanced raw →
      Body.read? 0 inside = some (Body.read 0 inside)) ∧
    WellFounded fun other raw => LeadsTo raw other := by
  refine ⟨?_, ?_, firstGroup_eq_none_iff, ?_, wellFounded_leadsTo⟩
  · intro group found
    have grouped := firstGroup_eq_ok_iff.1 found
    obtain ⟨cut, front, behind⟩ := cutsAt_of_firstGroup grouped
    refine ⟨cut, ?_, ⟨front, behind⟩, ?_⟩
    · intro start stop alternatives other
      exact other.eq_of_firstGroup grouped
    · intro alternative held
      exact count_around_lt grouped held
  · intro start stop alternatives cut nonempty
    exact ⟨_, firstGroup_eq_ok_iff.2 (firstGroup_of_cutsAt cut nonempty)⟩
  · rintro before inside rfl absent balanced
    exact Body.read?_of_balanced absent balanced

/-- The group of `a{b,{c,d}}e{f}` stands from 1 to 10, and its comma is the first one. -/
theorem firstGroup_of_group_in_group :
    let raw := ['a', '{', 'b', ',', '{', 'c', ',', 'd', '}', '}', 'e', '{', 'f', '}']
    let group : Group := ⟨['a'], [['b'], ['{', 'c', ',', 'd', '}']], ['e', '{', 'f', '}']⟩
    firstGroup raw = .ok (some group) ∧ CutsAt raw 1 10 group.alternatives ∧
      (∀ start stop alternatives, CutsAt raw start stop alternatives →
        start = 1 ∧ stop = 10 ∧ alternatives = group.alternatives) ∧
      (group.around ['b']).count '{' < raw.count '{' ∧ Balanced raw ∧
      Body.read? 0 (raw.drop 2) = some (Body.read 0 (raw.drop 2)) := by
  intro raw group
  have found : firstGroup raw = .ok (some group) := rfl
  obtain ⟨finds, -, -, scans, -⟩ := firstGroup_is_only_cut raw
  obtain ⟨cut, only, -, fewer⟩ := finds group found
  have balanced : Balanced raw := unpaired?_eq_none_iff.1 rfl
  exact ⟨found, cut, only, fewer ['b'] List.mem_cons_self, balanced,
    scans ['a'] _ rfl (by decide) balanced⟩

end Pattern

end Pkgsrc
