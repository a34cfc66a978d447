/-
# Pkgsrc.Proofs.Pattern.Blame -- where a malformed pattern is malformed

Every fault names the text that was being read and a position in it, and the text shows the
fault there (`Malformed.Reason.ShowsAt`): a brace or a comma, the operator of one of the cuts, or
the bracket of a set.  That text is the pattern itself, or comes of it by putting an alternative
in the place of a first group, again and again (`Braces.Picks`).

An alternative leaves the braces around it balanced (`Picks.balanced`).  Only the pattern itself
can therefore be unbalanced, never a text that it is expanded to.  And where braces are balanced,
one brace is enough for a group.  A reading that first tests for braces and then looks for a
group, and has no position to report when there is none, always finds one
(`parseBraced_eq_parse`).
-/
import Pkgsrc.Proofs.Braces.Balance
import Pkgsrc.Proofs.Glob.Reading
import Pkgsrc.Proofs.Pattern.Cutting
import Pkgsrc.Proofs.Pattern.Expansion
import Mathlib.Logic.Relation

namespace Pkgsrc

set_option autoImplicit false

/-! ## Operators that cut a text -/

namespace Cuts

/-- The cut with this index is made at the position, by the operator of the bound, which stands
there. -/
structure CutAt (text : Text) (position index : Nat) (bound : Operator × Text) : Prop where
  stands : bound.1.text <+: text.drop position
  divides : ∃ base bounds, Divides ⟨base, bounds⟩ text ∧ bounds[index]? = some bound ∧
    (Cuts.mk base (bounds.take index)).text.length = position

theorem text_append_cons (base : Text) (earlier later : List (Operator × Text))
    (bound : Operator × Text) :
    (Cuts.mk base (earlier ++ bound :: later)).text =
      (Cuts.mk base earlier).text ++ (bound.1.text ++ (Cuts.mk bound.2 later).text) := by
  simp [text]

theorem cutAt_of_read {text base : Text} {bounds : List (Operator × Text)}
    (read : Cuts.read text = ⟨base, bounds⟩) {index : Nat} {bound : Operator × Text}
    (held : bounds[index]? = some bound) {position : Nat}
    (start : (Cuts.mk base (bounds.take index)).text.length = position) :
    CutAt text position index bound := by
  refine ⟨?_, base, bounds, read_eq_iff_divides.1 read, held, start⟩
  obtain ⟨inside, rfl⟩ := List.getElem?_eq_some_iff.1 held
  have split : bounds = bounds.take index ++ bounds[index] :: bounds.drop (index + 1) := by
    rw [← List.drop_eq_getElem_cons inside, List.take_append_drop]
  have whole : text = (Cuts.mk base (bounds.take index)).text ++ (bounds[index].1.text ++
      (Cuts.mk bounds[index].2 (bounds.drop (index + 1))).text) := by
    rw [← text_append_cons, ← split, ← read, text_read]
  rw [whole, ← start, List.drop_left]
  exact List.prefix_append _ _

theorem CutAt.lt_length {text : Text} {position index : Nat} {bound : Operator × Text}
    (cut : CutAt text position index bound) : position < text.length := by
  have shorter := cut.stands.length_le
  have longer := List.length_pos_of_ne_nil bound.1.text_ne_nil
  rw [List.length_drop] at shorter
  omega

end Cuts

/-! ## Faults that show -/

namespace Malformed

/-- The text shows the reason at the position. -/
def Reason.ShowsAt (text : Text) (position : Nat) : Reason → Prop
  | .unbalancedBraces => text[position]? = some '{' ∨ text[position]? = some '}'
  | .emptyAlternative => text[position]? = some ',' ∨ text[position]? = some '}'
  | .missingName => ∃ bound, Cuts.CutAt text position 0 bound
  | .tooManyOperators => ∃ bound, Cuts.CutAt text position 2 bound
  | .missingVersion operator => ∃ index, Cuts.CutAt text position index (operator, [])
  | .operatorOrder => ∃ bound, Cuts.CutAt text position 0 bound
  | .set _ => text[position]? = some '['

/-- What shows does so inside the text. -/
theorem Reason.ShowsAt.lt_length {text : Text} {position : Nat} {reason : Reason}
    (shows : reason.ShowsAt text position) : position < text.length := by
  have inside {c : Char} (held : text[position]? = some c) : position < text.length :=
    (List.getElem?_eq_some_iff.1 held).1
  cases reason with
  | unbalancedBraces => exact shows.elim inside inside
  | emptyAlternative => exact shows.elim inside inside
  | missingName => exact shows.elim fun _ cut => cut.lt_length
  | tooManyOperators => exact shows.elim fun _ cut => cut.lt_length
  | missingVersion operator => exact shows.elim fun _ cut => cut.lt_length
  | operatorOrder => exact shows.elim fun _ cut => cut.lt_length
  | set cause => exact inside shows

/-- The fault is one of this text, which shows it. -/
structure ShowsIn (text : Text) (fault : Malformed) : Prop where
  pattern_eq : fault.pattern = text
  shows : fault.reason.ShowsAt text fault.position

end Malformed

namespace Pattern

open Braces

/-! ## Texts without braces -/

theorem showsIn_of_checkVersion {text : Text} {position index : Nat} {bound : Operator × Text}
    {fault : Malformed} (cut : Cuts.CutAt text position index bound)
    (failed : checkVersion text position bound = .error fault) : fault.ShowsIn text := by
  obtain ⟨operator, version⟩ := bound
  unfold checkVersion at failed
  split at failed
  · rename_i empty
    cases failed
    cases empty
    exact ⟨rfl, index, cut⟩
  · cases failed

theorem showsIn_of_rangeOf {text base : Text} {lower upper : Operator × Text} {fault : Malformed}
    (cut : Cuts.CutAt text base.length 0 lower)
    (failed : rangeOf text base lower upper = .error fault) : fault.ShowsIn text := by
  unfold rangeOf at failed
  split at failed
  · cases failed
  · cases failed
    exact ⟨rfl, lower, cut⟩

/-- A fault in the comparisons shows at the operator of one of them. -/
theorem showsIn_of_ofCuts {text : Text} {fault : Malformed}
    (cut : (Cuts.read text).bounds ≠ [])
    (failed : ofCuts text (Cuts.read text) = .error fault) : fault.ShowsIn text := by
  rcases read : Cuts.read text with ⟨base, bounds⟩
  rw [read] at cut failed
  unfold ofCuts at failed
  by_cases named : base = []
  · obtain ⟨first, others, rfl⟩ := List.exists_cons_of_ne_nil cut
    simp only [if_pos named] at failed
    cases failed
    exact ⟨rfl, first, Cuts.cutAt_of_read read rfl (by simp [Cuts.text, named])⟩
  simp only [if_neg named] at failed
  rcases bounds with _ | ⟨lower, _ | ⟨upper, _ | ⟨third, others⟩⟩⟩
  · exact absurd rfl cut
  · have cutLower : Cuts.CutAt text base.length 0 lower :=
      Cuts.cutAt_of_read read rfl (by simp [Cuts.text])
    rcases bind_eq_error_iff.1 failed with checked | ⟨_, -, done⟩
    · exact showsIn_of_checkVersion cutLower checked
    · cases done
  · have cutLower : Cuts.CutAt text base.length 0 lower :=
      Cuts.cutAt_of_read read rfl (by simp [Cuts.text])
    have cutUpper : Cuts.CutAt text (base.length + boundLength lower) 1 upper :=
      Cuts.cutAt_of_read read rfl (by simp [Cuts.text, boundLength])
    rcases bind_eq_error_iff.1 failed with checked | ⟨_, -, failed⟩
    · exact showsIn_of_checkVersion cutLower checked
    rcases bind_eq_error_iff.1 failed with checked | ⟨_, -, failed⟩
    · exact showsIn_of_checkVersion cutUpper checked
    · exact showsIn_of_rangeOf cutLower failed
  · cases failed
    exact ⟨rfl, third,
      Cuts.cutAt_of_read read rfl (by simp [Cuts.text, boundLength, Nat.add_assoc])⟩

/-- A fault in a glob shows at a bracket. -/
theorem showsIn_of_compile {text : Text} {fault : Malformed}
    (failed : Glob.compile text = .error fault) : fault.ShowsIn text := by
  obtain ⟨pieces, back, cause, stuck, rfl⟩ := Glob.compile_eq_error_iff.1 failed
  refine ⟨rfl, ?_⟩
  have bracket : (Glob.Piece.textOfAll pieces ++
      '[' :: back)[(Glob.Piece.textOfAll pieces).length]? = some '[' := by simp
  rwa [stuck.text_eq] at bracket

/-- **The faults of a text without braces show in it.** -/
theorem showsIn_of_parsePlain {text : Text} {fault : Malformed}
    (failed : parsePlain text = .error fault) : fault.ShowsIn text := by
  unfold parsePlain at failed
  by_cases uncut : (Cuts.read text).bounds = []
  · by_cases wild : text.any isWildcard = true
    · simp only [uncut, ne_eq, not_true, if_false, wild, if_true] at failed
      exact showsIn_of_compile (map_eq_error_iff.1 failed)
    · simp [uncut, wild] at failed
  · exact showsIn_of_ofCuts uncut (by simpa [uncut] using failed)

theorem showsIn_of_braceFault {text : Text} {cause : Braces.Fault}
    (failed : Braces.firstGroup text = .error cause) : (braceFault text cause).ShowsIn text := by
  have shows := shows_of_firstGroup failed
  cases cause with
  | unbalanced position => exact ⟨rfl, shows⟩
  | emptyAlternative position => exact ⟨rfl, shows⟩

end Pattern

/-! ## Texts that a text is expanded to -/

namespace Braces

/-- The other text has an alternative in the place of the first group. -/
def Picks (text other : Text) : Prop :=
  ∃ before choices rest, (Sequence.grouped before choices rest).Proper false ∧
    (Sequence.grouped before choices rest).text = text ∧
    ∃ choice ∈ choices.toList, before ++ choice.text ++ rest.text = other

theorem picks_of_firstGroup {text alternative : Text} {group : Group}
    (found : firstGroup text = .ok (some group)) (held : alternative ∈ group.alternatives) :
    Picks text (group.around alternative) := by
  obtain ⟨tree, proper, rfl⟩ := exists_proper_of_firstGroup found
  rcases tree.plain_or_grouped with ⟨letters, rfl⟩ | ⟨before, choices, rest, rfl⟩
  · rw [Sequence.text_plain, firstGroup_text_of_plain proper] at found
    cases found
  · cases (findGroup_of_firstGroup found).symm.trans (findGroup_text_of_group proper)
    obtain ⟨choice, inChoices, rfl⟩ := List.mem_map.1 held
    exact ⟨before, choices, rest, proper, rfl, choice, inChoices, rfl⟩

/-- **An alternative in the place of its group leaves braces balanced.** -/
theorem Picks.balanced {text other : Text} (picks : Picks text other) : Balanced other := by
  obtain ⟨before, choices, rest, proper, rfl, choice, held, rfl⟩ := picks
  rw [balanced_iff_exists_tree]
  exact ⟨_, Sequence.proper_around proper held, Sequence.text_around before rest choice⟩

/-- A text with a first group has braces. -/
theorem Picks.braced {text other : Text} (picks : Picks text other) : '{' ∈ text := by
  obtain ⟨before, choices, rest, proper, rfl, choice, held, rfl⟩ := picks
  simp [Sequence.text_grouped]

theorem balanced_of_transGen {text other : Text} (picked : Relation.TransGen Picks text other) :
    Balanced other := by
  obtain ⟨last, -, picks⟩ := Relation.TransGen.tail'_iff.1 picked
  exact picks.balanced

end Braces

namespace Pattern

open Braces

/-- A fault is one of the text itself, or of one that it is expanded to: in the braces, or in a
text without any. -/
theorem exists_picked_of_fault {raw : Text} {fault : Malformed}
    (failed : parse raw = .error fault) :
    ∃ text, Relation.ReflTransGen Picks raw text ∧
      ((∃ cause, Braces.firstGroup text = .error cause ∧ fault = braceFault text cause) ∨
        ('{' ∉ text ∧ '}' ∉ text) ∧ parsePlain text = .error fault) := by
  cases found : Braces.firstGroup raw with
  | error cause =>
      rw [parse_of_fault found] at failed
      exact ⟨raw, .refl, .inl ⟨cause, found, by simpa using failed.symm⟩⟩
  | ok group? =>
      cases group? with
      | none =>
          rw [parse_of_plain found, map_eq_error_iff] at failed
          exact ⟨raw, .refl, .inr ⟨no_braces_of_firstGroup found, failed⟩⟩
      | some group =>
          rw [parse_of_group found, map_eq_error_iff] at failed
          obtain ⟨earlier, alternative, later, shape, -, failed⟩ := mapM_eq_error_iff.1 failed
          have held : alternative ∈ group.alternatives := by simp [shape]
          obtain ⟨text, picked, origin⟩ := exists_picked_of_fault failed
          exact ⟨text, .head (picks_of_firstGroup found held) picked, origin⟩
termination_by raw.count '{'
decreasing_by exact count_around_lt found held

/-- The text of a fault shows it, and comes of the pattern. -/
theorem showsIn_of_parse {raw : Text} {fault : Malformed} (failed : parse raw = .error fault) :
    fault.ShowsIn fault.pattern ∧ Relation.ReflTransGen Picks raw fault.pattern := by
  obtain ⟨text, picked, ⟨cause, found, rfl⟩ | ⟨-, plain⟩⟩ := exists_picked_of_fault failed
  · have shown := showsIn_of_braceFault found
    rw [shown.pattern_eq]
    exact ⟨shown, picked⟩
  · have shown := showsIn_of_parsePlain plain
    rw [shown.pattern_eq]
    exact ⟨shown, picked⟩

/-- Where braces are balanced, no expansion brings up one without partner. -/
theorem reason_ne_unbalanced {raw : Text} (balanced : Balanced raw) {fault : Malformed}
    (failed : parse raw = .error fault) : fault.reason ≠ .unbalancedBraces := by
  intro reason
  obtain ⟨text, picked, origin⟩ := exists_picked_of_fault failed
  have balancedText : Balanced text := by
    rcases picked.cases_tail with rfl | ⟨last, -, picks⟩
    · exact balanced
    · exact picks.balanced
  rcases origin with ⟨cause, found, rfl⟩ | ⟨⟨opening, closing⟩, plain⟩
  · cases cause with
    | unbalanced position => exact firstGroup_ne_unbalanced balancedText position found
    | emptyAlternative position => cases reason
  · obtain ⟨-, shows⟩ := showsIn_of_parsePlain plain
    rw [reason] at shows
    rcases shows with held | held
    · exact opening (List.mem_of_getElem? held)
    · exact closing (List.mem_of_getElem? held)

/-! ## A reading that tests for braces -/

/-- What stops a reading that tests for braces before it looks for a group. -/
inductive Obstacle where
  | malformed (fault : Malformed)
  /-- There are braces but no group: unbalanced, at no position that could be told. -/
  | groupless (text : Text)

/-- The reading that tests for braces before it looks for a group. -/
def parseBraced (text : Text) : Except Obstacle Pattern :=
  if '{' ∈ text ∨ '}' ∈ text then
    match _found : Braces.firstGroup text with
    | .error fault => .error (.malformed (braceFault text fault))
    | .ok none => .error (.groupless text)
    | .ok (some group) => do
      let branches ← group.alternatives.attach.mapM fun alternative =>
        parseBraced (group.around alternative.1)
      return .alternation text branches
  else ((parsePlain text).map .leaf).mapError .malformed
termination_by text.count '{'
decreasing_by exact Braces.count_around_lt _found alternative.2

theorem parseBraced_of_group {text : Text} {group : Group} (braced : '{' ∈ text ∨ '}' ∈ text)
    (found : Braces.firstGroup text = .ok (some group)) :
    parseBraced text =
      (group.alternatives.mapM fun alternative => parseBraced (group.around alternative)).map
        (.alternation text) := by
  rw [parseBraced, if_pos braced]
  split
  · simp_all
  · simp_all
  · rename_i other found'
    obtain rfl : group = other := by simpa using found.symm.trans found'
    rw [List.mapM_subtype (g := fun alternative => parseBraced (group.around alternative))
      fun _ _ => rfl, List.unattach_attach]
    cases group.alternatives.mapM fun alternative => parseBraced (group.around alternative) <;> rfl

/-- Where there are braces there is a group, unless they are flawed. -/
theorem parseBraced_eq_parse (text : Text) :
    parseBraced text = (parse text).mapError .malformed := by
  by_cases braced : '{' ∈ text ∨ '}' ∈ text
  · cases found : Braces.firstGroup text with
    | error cause =>
        rw [parse_of_fault found, parseBraced, if_pos braced]
        split <;> simp_all [Except.mapError]
    | ok group? =>
        cases group? with
        | none => exact absurd braced (not_or.2 (no_braces_of_firstGroup found))
        | some group =>
            have each : ∀ alternative ∈ group.alternatives,
                parseBraced (group.around alternative) =
                  (parse (group.around alternative)).mapError .malformed := by
              intro alternative held
              exact parseBraced_eq_parse (group.around alternative)
            rw [parse_of_group found, parseBraced_of_group braced found, mapM_congr each,
              mapM_mapError, map_mapError]
  · rw [parse_of_no_braces (not_or.1 braced), parseBraced, if_neg braced]
termination_by text.count '{'
decreasing_by exact count_around_lt found held

/-- **A malformed pattern is told with the place where it shows.**  Every fault has a position in
the text that it names, which shows its reason there.  That text is the pattern, or one that comes
of putting alternatives in the place of first groups, and so is every text that the reading goes
on with; none of these is found unbalanced.  That there are braces but no group is never found
either. -/
theorem fault_shows_where_parse_puts_it (raw : Text) :
    (∀ fault, parse raw = .error fault →
      fault.position < fault.pattern.length ∧
      fault.reason.ShowsAt fault.pattern fault.position ∧
      Relation.ReflTransGen Picks raw fault.pattern ∧
      (¬ ('{' ∈ raw ∨ '}' ∈ raw) → fault.pattern = raw)) ∧
    (∀ group, Braces.firstGroup raw = .ok (some group) → ∀ alternative ∈ group.alternatives,
      Picks raw (group.around alternative)) ∧
    (∀ next, Relation.TransGen Picks raw next →
      ∀ fault, parse next = .error fault → fault.reason ≠ .unbalancedBraces) ∧
    parseBraced raw = (parse raw).mapError .malformed := by
  refine ⟨fun fault failed => ?_, ?_, ?_, parseBraced_eq_parse raw⟩
  · obtain ⟨shown, picked⟩ := showsIn_of_parse failed
    refine ⟨shown.shows.lt_length, shown.shows, picked, fun bare => ?_⟩
    rcases picked.cases_head with same | ⟨next, picks, -⟩
    · exact same.symm
    · exact absurd (.inl picks.braced) bare
  · exact fun group found alternative held => picks_of_firstGroup found held
  · exact fun next picked fault failed =>
      reason_ne_unbalanced (balanced_of_transGen picked) failed

theorem fault_of_second_alternative_and_of_glob :
    (parse ['{', 'a', ',', 'b', '<', '}'] = .error ⟨['b', '<'], .missingVersion .lt, 1⟩ ∧
      (1 < ['b', '<'].length ∧ ∃ index, Cuts.CutAt ['b', '<'] 1 index (.lt, [])) ∧
      Relation.TransGen Picks ['{', 'a', ',', 'b', '<', '}'] ['b', '<'] ∧
      ∀ fault, parse ['b', '<'] = .error fault → fault.reason ≠ .unbalancedBraces) ∧
    parse ['*', '['] = .error ⟨['*', '['], .set .unterminated, 1⟩ ∧
      1 < ['*', '['].length ∧ ['*', '['][1]? = some '[' := by
  constructor
  · have found : Braces.firstGroup ['{', 'a', ',', 'b', '<', '}'] =
        .ok (some ⟨[], [['a'], ['b', '<']], []⟩) := rfl
    have second : parse ['b', '<'] = .error ⟨['b', '<'], .missingVersion .lt, 1⟩ := by
      rw [parse_of_no_braces (by decide)]
      rfl
    have first : ∃ pattern, parse ['a'] = .ok pattern := by
      rw [parse_of_no_braces (by decide)]
      exact ⟨_, rfl⟩
    have failed : parse ['{', 'a', ',', 'b', '<', '}'] =
        .error ⟨['b', '<'], .missingVersion .lt, 1⟩ := by
      rw [parse_of_group found, map_eq_error_iff, mapM_eq_error_iff]
      exact ⟨[['a']], ['b', '<'], [], rfl, by simpa [Group.around] using first, second⟩
    obtain ⟨blame, picks, nested, -⟩ :=
      fault_shows_where_parse_puts_it ['{', 'a', ',', 'b', '<', '}']
    obtain ⟨inside, shows, -⟩ := blame _ failed
    have picked : Relation.TransGen Picks ['{', 'a', ',', 'b', '<', '}'] ['b', '<'] :=
      .single (picks _ found ['b', '<'] (by simp))
    exact ⟨failed, ⟨inside, shows⟩, picked, nested _ picked⟩
  · have unclosed : Glob.Member.Fails true (Glob.Member.textOfAll []) .unterminated :=
      .unterminated trivial (by simp)
    have fails : Glob.Bracket.Fails [] .unterminated := ⟨none, [], fun _ => by decide, unclosed, rfl⟩
    have stuck : Glob.Piece.Stuck [.star] [] .unterminated ['*', '['] :=
      ⟨rfl, ⟨.star, trivial⟩, fails⟩
    have failed : parse ['*', '['] = .error ⟨['*', '['], .set .unterminated, 1⟩ := by
      have compiled := Glob.compile_eq_error_iff.2 ⟨_, _, _, stuck, rfl⟩
      rw [parse_of_no_braces (by decide), map_eq_error_iff]
      exact map_eq_error_iff.2 compiled
    obtain ⟨inside, shows, -⟩ := (fault_shows_where_parse_puts_it ['*', '[']).1 _ failed
    exact ⟨failed, inside, shows⟩

end Pattern

end Pkgsrc
