/-
# Pkgsrc.Proofs.Matcher.Best -- how good the best candidate is

The best candidate is found by keeping a leader: an accepted candidate takes the lead if it is
newer than the leader.  Versions are not ordered transitively, so a leader need not be older than
those that lead later; but there is a chain of ever newer versions from it to them, and such a
chain never closes (`Version.not_transGen_older`).  So what is kept in each round is that every
candidate so far climbs to the leader by a chain, or has an equal one before it that does
(`Passed`, `leads_advance`).  It follows that a candidate newer than the last leader stands before
it, after an equal one that is older than the leader (`Leads.exists_equal_older`): such a candidate
is there only if the order is not transitive.
-/
import Pkgsrc.Proofs.Matcher.Rounds
import Pkgsrc.Proofs.Version.Lexicographic

namespace Pkgsrc

set_option autoImplicit false

open Version

namespace Matcher

/-- The candidates that are accepted, in order. -/
def accepted (pattern : Text) (candidates : List Text) : List Text :=
  candidates.filter fun candidate =>
    match ((accepts pattern candidate).run forgetful).1 with
    | .ok held => held
    | .error _ => false

/-! ## Climbing -/

/-- One member is older than another. -/
def Climbs (members : List Text) (a b : Text) : Prop :=
  a ∈ members ∧ b ∈ members ∧ Older (versionOf a) (versionOf b)

/-- Each of the texts has a way to the leader, or an equal one before it has. -/
def Passed (way : Text → Text → Prop) (texts : List Text) (leader : Text) : Prop :=
  ∀ earlier text later, texts = earlier ++ text :: later →
    way text leader ∨
      ∃ equal ∈ earlier, Alike (versionOf equal) (versionOf text) ∧ way equal leader

/-- The leader after these texts have been seen.  Those before it have a way that is not empty. -/
structure Leads (members seen : List Text) (leader : Text) : Prop where
  passed : Passed (Relation.ReflTransGen (Climbs members)) seen leader
  place : ∃ before after, seen = before ++ leader :: after ∧
    (∀ text ∈ after, ¬ Newer (versionOf text) (versionOf leader)) ∧
    Passed (Relation.TransGen (Climbs members)) before leader

theorem Passed.nil (way : Text → Text → Prop) (leader : Text) : Passed way [] leader := by
  intro earlier text later shape
  simp at shape

theorem Passed.mono {way way' : Text → Text → Prop} {texts : List Text} {leader next : Text}
    (passed : Passed way texts leader) (further : ∀ text, way text leader → way' text next) :
    Passed way' texts next := by
  intro earlier text later shape
  rcases passed earlier text later shape with direct | ⟨equal, inside, alike, indirect⟩
  · exact Or.inl (further text direct)
  · exact Or.inr ⟨equal, inside, alike, further equal indirect⟩

theorem Passed.concat {way : Text → Text → Prop} {texts : List Text} {leader last : Text}
    (passed : Passed way texts leader)
    (lastPassed : way last leader ∨
      ∃ equal ∈ texts, Alike (versionOf equal) (versionOf last) ∧ way equal leader) :
    Passed way (texts ++ [last]) leader := by
  intro earlier text later shape
  rcases concat_eq_append_cons_iff.1 shape with ⟨rfl, rfl, rfl⟩ | ⟨between, rfl, rfl⟩
  · exact lastPassed
  · exact passed earlier text between rfl

theorem climbs_of_transGen {members : List Text}
    (transitive : ∀ a b c, Climbs members a b → Climbs members b c → Climbs members a c)
    {a b : Text} (way : Relation.TransGen (Climbs members) a b) : Climbs members a b := by
  induction way with
  | single climbs => exact climbs
  | tail _ climbs ih => exact transitive _ _ _ ih climbs

/-! ## Rounds -/

theorem leads_singleton (members : List Text) (first : Text) : Leads members [first] first :=
  ⟨(Passed.nil _ _).concat (Or.inl .refl), [], [], rfl, by simp, Passed.nil _ _⟩

variable {members seen : List Text} {leader candidate : Text}

/-- A newer candidate takes the lead. -/
theorem Leads.overtaken (leads : Leads members seen leader)
    (climbs : Climbs members leader candidate) : Leads members (seen ++ [candidate]) candidate := by
  have before : Passed (Relation.TransGen (Climbs members)) seen candidate :=
    leads.passed.mono fun text way => Relation.TransGen.tail' way climbs
  have weak := before.mono fun text way => Relation.TransGen.to_reflTransGen way
  exact ⟨weak.concat (Or.inl .refl), seen, [], rfl, by simp, before⟩

/-- Any other candidate leaves the leader as it is. -/
theorem Leads.kept (leads : Leads members seen leader)
    (notNewer : ¬ Newer (versionOf candidate) (versionOf leader))
    (below : Climbs members candidate leader ∨ Alike (versionOf leader) (versionOf candidate)) :
    Leads members (seen ++ [candidate]) leader := by
  obtain ⟨before, after, rfl, unsurpassed, passed⟩ := leads.place
  refine ⟨leads.passed.concat ?_, before, after ++ [candidate], by simp, ?_, passed⟩
  · rcases below with climbs | alike
    · exact Or.inl (.single climbs)
    · exact Or.inr ⟨leader, by simp, alike, .refl⟩
  · intro text inside
    rcases List.mem_append.1 inside with known | new
    · exact unsurpassed text known
    · rw [List.mem_singleton.1 new]
      exact notNewer

theorem leads_advance (leads : Leads members seen leader) (leaderInside : leader ∈ members)
    (inside : candidate ∈ members)
    (within : ∀ text ∈ members, Decimal.Within (versionOf text)) :
    ∃ next ∈ members, advance (some leader) candidate = .ok (some next) ∧
      Leads members (seen ++ [candidate]) next := by
  obtain ⟨result, compared⟩ :=
    exists_order_of_within (within candidate inside) (within leader leaderInside)
  have advanced := advance_of_order compared
  have notNewer : result ≠ .gt → ¬ Newer (versionOf candidate) (versionOf leader) := by
    intro other newerThan
    exact other (Except.ok.inj (compared.symm.trans newerThan))
  cases result with
  | lt =>
      exact ⟨leader, leaderInside, advanced,
        leads.kept (notNewer (by simp)) (Or.inl ⟨inside, leaderInside, compared⟩)⟩
  | eq =>
      exact ⟨leader, leaderInside, advanced,
        leads.kept (notNewer (by simp)) (Or.inr (Alike.symm compared))⟩
  | gt =>
      exact ⟨candidate, inside, advanced,
        leads.overtaken ⟨leaderInside, inside, newer_iff_older.1 compared⟩⟩

theorem exists_leader (within : ∀ text ∈ members, Decimal.Within (versionOf text))
    (rest : List Text) (leads : Leads members seen leader) (leaderInside : leader ∈ members)
    (shape : seen ++ rest = members) :
    ∃ final, rest.foldlM advance (some leader) = .ok (some final) ∧
      Leads members members final := by
  induction rest generalizing seen leader with
  | nil => exact ⟨leader, rfl, by simpa [← shape] using leads⟩
  | cons candidate rest ih =>
      have inside : candidate ∈ members := by simp [← shape]
      obtain ⟨next, nextInside, advanced, leadsNext⟩ :=
        leads_advance leads leaderInside inside within
      rw [List.foldlM_cons, advanced]
      exact ih leadsNext nextInside (by simp [← shape])

/-! ## The last leader -/

/-- What singles out the best of some members, which stands between those before and after it. -/
structure Prevails (members before : List Text) (best : Text) (after : List Text) : Prop where
  place : members = before ++ best :: after
  /-- No member after the best one is newer. -/
  unsurpassed : ∀ text ∈ after, ¬ Newer (versionOf text) (versionOf best)
  /-- A newer member stands before the best one, and before it an equal one that is older. -/
  surpassed : ∀ earlier text later, members = earlier ++ text :: later →
    Newer (versionOf text) (versionOf best) →
    earlier.length < before.length ∧
      ∃ equal ∈ earlier, Alike (versionOf equal) (versionOf text) ∧
        Older (versionOf equal) (versionOf best)
  /-- Where older than older is older among the members, the best one is the first that none is
  newer than. -/
  greatest : (∀ a b c, Climbs members a b → Climbs members b c → Climbs members a c) →
    (∀ text ∈ members, ¬ Newer (versionOf text) (versionOf best)) ∧
      ∀ text ∈ before, ∃ other ∈ members, Newer (versionOf other) (versionOf text)

theorem not_newer_of_reaches {text : Text}
    (way : Relation.ReflTransGen (Climbs members) text leader) :
    ¬ Newer (versionOf text) (versionOf leader) := by
  intro newerThan
  have down : Older (versionOf leader) (versionOf text) := newer_iff_older.1 newerThan
  have up : Relation.ReflTransGen Older (versionOf text) (versionOf leader) :=
    way.lift versionOf fun _ _ climbs => climbs.2.2
  exact not_transGen_older _ (Relation.TransGen.head' down up)

/-- Where two lists are cut, the second one is cut before, at or after the first cut. -/
theorem cut_before_or_at_or_after {α : Type} {before after earlier later : List α} {best item : α}
    (shape : before ++ best :: after = earlier ++ item :: later) :
    earlier.length < before.length ∨ item = best ∨ item ∈ after := by
  rcases List.append_eq_append_iff.1 shape with ⟨between, rfl, rest⟩ | ⟨between, rfl, rest⟩
  · rcases between with _ | ⟨first, between⟩
    · exact Or.inr (Or.inl (List.cons.inj rest).1.symm)
    · rw [(List.cons.inj rest).2]
      exact Or.inr (Or.inr (by simp))
  · rcases between with _ | ⟨first, between⟩
    · exact Or.inr (Or.inl (List.cons.inj rest).1)
    · exact Or.inl (by simp)

/-- A newer member has an equal one before it that is older than the leader. -/
theorem Leads.exists_equal_older (leads : Leads members members leader)
    (within : ∀ text ∈ members, Decimal.Within (versionOf text)) (leaderInside : leader ∈ members)
    {earlier later : List Text} {text : Text} (shape : members = earlier ++ text :: later)
    (newerThan : Newer (versionOf text) (versionOf leader)) :
    ∃ equal ∈ earlier, Alike (versionOf equal) (versionOf text) ∧
      Older (versionOf equal) (versionOf leader) := by
  rcases leads.passed earlier text later shape with way | ⟨equal, inside, alike, way⟩
  -- A way from the newer member to the leader would close a chain.
  · exact absurd newerThan (not_newer_of_reaches way)
  · have equalInside : equal ∈ members := by simp [shape, inside]
    obtain ⟨result, compared⟩ :=
      exists_order_of_within (within equal equalInside) (within leader leaderInside)
    cases result with
    | lt => exact ⟨equal, inside, alike, compared⟩
    | eq => exact absurd newerThan (not_newer_of_alike (alike.symm.trans compared))
    | gt => exact absurd compared (not_newer_of_reaches way)

/-- Among members that are ordered transitively, none is newer than the leader. -/
theorem Leads.not_newer (leads : Leads members members leader)
    (within : ∀ text ∈ members, Decimal.Within (versionOf text)) (leaderInside : leader ∈ members)
    (transitive : ∀ a b c, Climbs members a b → Climbs members b c → Climbs members a c)
    {text : Text} (inside : text ∈ members) : ¬ Newer (versionOf text) (versionOf leader) := by
  intro newerThan
  obtain ⟨earlier, later, shape⟩ := List.append_of_mem inside
  obtain ⟨equal, found, alike, older⟩ :=
    leads.exists_equal_older within leaderInside shape newerThan
  have equalInside : equal ∈ members := by simp [shape, found]
  have up : Climbs members equal leader := ⟨equalInside, leaderInside, older⟩
  have further : Climbs members leader text :=
    ⟨leaderInside, inside, newer_iff_older.1 newerThan⟩
  exact not_newer_of_alike alike.symm (newer_iff_older.2 (transitive _ _ _ up further).2.2)

/-- Among members that are ordered transitively, those with a way to the leader, or behind an equal
one that has, are older. -/
theorem Passed.older {texts : List Text}
    (passed : Passed (Relation.TransGen (Climbs members)) texts leader)
    (within : ∀ text ∈ members, Decimal.Within (versionOf text)) (leaderInside : leader ∈ members)
    (transitive : ∀ a b c, Climbs members a b → Climbs members b c → Climbs members a c)
    (notNewer : ∀ text ∈ members, ¬ Newer (versionOf text) (versionOf leader))
    {text : Text} (seen : text ∈ texts) (inside : text ∈ members) :
    Older (versionOf text) (versionOf leader) := by
  obtain ⟨earlier, later, rfl⟩ := List.append_of_mem seen
  rcases passed earlier text later rfl with way | ⟨equal, found, alike, way⟩
  · exact (climbs_of_transGen transitive way).2.2
  · have up : Older (versionOf equal) (versionOf leader) :=
      (climbs_of_transGen transitive way).2.2
    obtain ⟨result, compared⟩ :=
      exists_order_of_within (within text inside) (within leader leaderInside)
    cases result with
    | lt => exact compared
    | eq =>
        have same : Alike (versionOf leader) (versionOf equal) := (alike.trans compared).symm
        exact absurd (newer_iff_older.2 up) (not_newer_of_alike same)
    | gt => exact absurd compared (notNewer text inside)

theorem Leads.prevails (leads : Leads members members leader)
    (within : ∀ text ∈ members, Decimal.Within (versionOf text)) :
    ∃ before after, Prevails members before leader after := by
  obtain ⟨before, after, place, unsurpassed, passed⟩ := leads.place
  have leaderInside : leader ∈ members := by simp [place]
  refine ⟨before, after, place, unsurpassed, ?_, ?_⟩
  · intro earlier text later shape newerThan
    refine ⟨?_, leads.exists_equal_older within leaderInside shape newerThan⟩
    rcases cut_before_or_at_or_after (place.symm.trans shape) with first | rfl | inside
    · exact first
    · exact absurd newerThan (@not_newer_of_reaches members _ _ .refl)
    · exact absurd newerThan (unsurpassed text inside)
  · intro transitive
    have notNewer : ∀ text ∈ members, ¬ Newer (versionOf text) (versionOf leader) :=
      fun text inside => leads.not_newer within leaderInside transitive inside
    refine ⟨notNewer, ?_⟩
    intro text inside
    have older : Older (versionOf text) (versionOf leader) :=
      passed.older within leaderInside transitive notNewer inside (by simp [place, inside])
    exact ⟨leader, leaderInside, newer_iff_older.2 older⟩

/-! ## The whole search -/

variable {pattern : Text} {candidates : List Text}

theorem accepted_cons (pattern candidate : Text) (candidates : List Text) :
    accepted pattern (candidate :: candidates) =
      match answer pattern candidate with
      | .ok true => candidate :: accepted pattern candidates
      | .ok false => accepted pattern candidates
      | .error _ => accepted pattern candidates := by
  rw [accepted, List.filter_cons, run_accepts, accepted]
  cases answer pattern candidate with
  | error fault => rfl
  | ok held => cases held <;> rfl

theorem advance_eq_error {best : Option Text} {fault : Matching.Fault}
    (failed : advance best candidate = .error fault) : fault = .number .tooManyDigits := by
  cases best with
  | none => cases failed
  | some known =>
      have notCompared := map_eq_error_iff.1 failed
      cases compared : newer known candidate with
      | ok next =>
          rw [compared] at notCompared
          cases notCompared
      | error cause =>
          cases cause
          rw [compared] at notCompared
          exact (Except.error.inj notCompared).symm

/-- A round fails on a number that is too long, or not at all. -/
theorem round_eq_error {best : Option Text} {fault : Matching.Fault}
    (failed : round pattern best candidate = .error fault) : fault = .number .tooManyDigits := by
  unfold round at failed
  rcases answer_eq_ok_or_number pattern candidate with ⟨held, answered⟩ | ⟨cause, answered⟩
  · rw [answered] at failed
    cases held with
    | false => cases failed
    | true => exact advance_eq_error failed
  · rw [answered] at failed
    cases cause
    exact (Except.error.inj failed).symm

/-- Where no answer is a failure, the refused candidates may as well be left out. -/
theorem foldlM_round (fine : ∀ candidate ∈ candidates, ∃ held, answer pattern candidate = .ok held)
    (best : Option Text) :
    candidates.foldlM (round pattern) best = (accepted pattern candidates).foldlM advance best := by
  induction candidates generalizing best with
  | nil => rfl
  | cons candidate others ih =>
      obtain ⟨⟨held, answered⟩, fineOthers⟩ := List.forall_mem_cons.1 fine
      rw [List.foldlM_cons, accepted_cons, round, answered]
      cases held with
      | false => exact ih fineOthers best
      | true =>
          rw [List.foldlM_cons]
          congr 1
          funext next
          exact ih fineOthers next

/-- A failure of one answer is a failure of the search. -/
theorem foldlM_round_of_error {fault : Matching.Fault} (inside : candidate ∈ candidates)
    (failed : answer pattern candidate = .error fault) (best : Option Text) :
    candidates.foldlM (round pattern) best = .error (.number .tooManyDigits) := by
  induction candidates generalizing best with
  | nil => cases inside
  | cons first others ih =>
      rw [List.foldlM_cons]
      cases ran : round pattern best first with
      | error cause =>
          rw [round_eq_error ran]
          rfl
      | ok next =>
          rcases List.mem_cons.1 inside with rfl | later
          · rw [round, failed] at ran
            cases ran
          · exact ih later next

theorem exists_prevailing (within : ∀ text ∈ members, Decimal.Within (versionOf text))
    (nonempty : members ≠ []) :
    ∃ before best after, members.foldlM advance none = .ok (some best) ∧
      Prevails members before best after := by
  obtain ⟨first, rest, rfl⟩ := List.exists_cons_of_ne_nil nonempty
  obtain ⟨best, found, leads⟩ :=
    exists_leader within rest (leads_singleton _ first) List.mem_cons_self rfl
  obtain ⟨before, after, prevails⟩ := leads.prevails within
  exact ⟨before, best, after, found, prevails⟩

/-- The pattern `a>0`. -/
def aboveZero : Text := ['a', '>', '0']

theorem answer_aboveZero (candidate : Text) :
    answer aboveZero candidate =
      lenient (Matching.byVersion ['a'] (Relation.holds ⟨['a'], .gt, ['0']⟩) candidate) := by
  have parse : Pattern.parse aboveZero = .ok (.leaf (.relation ⟨['a'], .gt, ['0']⟩)) := by
    rw [aboveZero, Pattern.parse_of_no_braces (by decide)]
    rfl
  rw [answer_of_parse parse, Pattern.accepts_leaf, Leaf.accepts_relation]

/-- The name `a-999…`, with one digit too many. -/
def endless : Text := 'a' :: '-' :: List.replicate 4301 '9'

theorem answer_endless : answer aboveZero endless = .error (.number .tooManyDigits) := by
  have noHyphen : '-' ∉ List.replicate 4301 '9' := by
    intro held
    cases List.eq_of_mem_replicate held
  have named : PkgName.ofText? endless = some ⟨['a'], List.replicate 4301 '9', noHyphen⟩ :=
    PkgName.ofText?_eq_some_iff.2 rfl
  have compared : order (List.replicate 4301 '9') ['0'] = .error .tooManyDigits :=
    order_eq_error (Or.inl (Decimal.not_within_replicate rfl (by decide)))
  rw [answer_aboveZero, Matching.byVersion_of_eq named rfl, Relation.holds, compared]
  rfl

/-- **The best candidate prevails.**  If some candidate cannot be tried for want of a short
number, there is no best one either; otherwise, and if the accepted ones have no number that is
too long, there is a best one unless none is accepted, and it prevails over the others. -/
theorem best_prevails_or_number_too_long (matcher : Matcher) (pattern : Text)
    (candidates : List Text) :
    ((∃ candidate ∈ candidates, ∃ fault,
        ((accepts pattern candidate).run forgetful).1 = .error fault) →
      ((best? pattern candidates).run matcher).1 = .error (.number .tooManyDigits)) ∧
    ((∀ candidate ∈ candidates, ∃ held,
        ((accepts pattern candidate).run forgetful).1 = .ok held) →
      (∀ text ∈ accepted pattern candidates, Decimal.Within (versionOf text)) →
      (((best? pattern candidates).run matcher).1 = .ok none ↔
        accepted pattern candidates = []) ∧
      (accepted pattern candidates ≠ [] →
        ∃ before best after, ((best? pattern candidates).run matcher).1 = .ok (some best) ∧
          Prevails (accepted pattern candidates) before best after)) := by
  simp only [run_accepts, run_best]
  constructor
  · rintro ⟨candidate, inside, fault, failed⟩
    exact foldlM_round_of_error inside failed none
  · intro fine within
    rw [foldlM_round fine]
    refine ⟨?_, exists_prevailing within⟩
    constructor
    · intro found
      by_contra nonempty
      obtain ⟨before, best, after, other, -⟩ := exists_prevailing within nonempty
      cases found.symm.trans other
    · intro empty
      rw [empty]
      rfl

/-- `1a` is newer than `1` and `1.0` is newer than `1a`, although it equals `1`: so `a-1a` prevails
in the end.  With a number that is too long among them, there is no best candidate. -/
theorem best_of_circular_versions :
    let circular :=
      [['a', '-', '1'], ['b', '-', '2'], ['a', '-', '1', '.', '0'], ['a', '-', '1', 'a']]
    accepted aboveZero circular =
        [['a', '-', '1'], ['a', '-', '1', '.', '0'], ['a', '-', '1', 'a']] ∧
      Newer (versionOf ['a', '-', '1', '.', '0']) (versionOf ['a', '-', '1', 'a']) ∧
      (∃ before best after,
        ((best? aboveZero circular).run forgetful).1 = .ok (some best) ∧
        Prevails (accepted aboveZero circular) before best after) ∧
      ((best? aboveZero [endless]).run forgetful).1 = .error (.number .tooManyDigits) := by
  intro circular
  have first : answer aboveZero ['a', '-', '1'] = .ok true := answer_aboveZero _
  have second : answer aboveZero ['b', '-', '2'] = .ok false := answer_aboveZero _
  have third : answer aboveZero ['a', '-', '1', '.', '0'] = .ok true := answer_aboveZero _
  have fourth : answer aboveZero ['a', '-', '1', 'a'] = .ok true := answer_aboveZero _
  have members : accepted aboveZero circular =
      [['a', '-', '1'], ['a', '-', '1', '.', '0'], ['a', '-', '1', 'a']] := by
    simp only [circular, accepted_cons, first, second, third, fourth]
    rfl
  have fine : ∀ candidate ∈ circular, ∃ held,
      ((accepts aboveZero candidate).run forgetful).1 = .ok held := by
    simp [circular, run_accepts, first, second, third, fourth]
  have within : ∀ text ∈ accepted aboveZero circular, Decimal.Within (versionOf text) := by
    rw [members]
    intro text held
    apply Decimal.within_of_length_le
    revert text
    decide
  have prevailing := (best_prevails_or_number_too_long forgetful aboveZero circular).2 fine within
  have failing : ∃ candidate ∈ [endless], ∃ fault,
      ((accepts aboveZero candidate).run forgetful).1 = .error fault :=
    ⟨endless, List.mem_singleton_self endless, _, (run_accepts _ _ _).trans answer_endless⟩
  exact ⟨members, rfl, prevailing.2 (by simp [members]),
    (best_prevails_or_number_too_long forgetful aboveZero [endless]).1 failing⟩

/-- Of `a-1` and a candidate whose number is too long, only `a-1` is accepted, yet there is no best
candidate. -/
theorem no_best_beside_number_too_long :
    accepted aboveZero [['a', '-', '1'], endless] = [['a', '-', '1']] ∧
      (∀ text ∈ accepted aboveZero [['a', '-', '1'], endless], Decimal.Within (versionOf text)) ∧
      ¬ ∃ found, ((best? aboveZero [['a', '-', '1'], endless]).run forgetful).1 = .ok found := by
  have first : answer aboveZero ['a', '-', '1'] = .ok true := answer_aboveZero _
  have members : accepted aboveZero [['a', '-', '1'], endless] = [['a', '-', '1']] := by
    rw [accepted_cons, accepted_cons, first, answer_endless]
    rfl
  refine ⟨members, ?_, ?_⟩
  · rw [members]
    intro text held
    rw [List.mem_singleton.1 held]
    exact Decimal.within_of_length_le (by decide)
  · rintro ⟨found, ran⟩
    have inside : endless ∈ [['a', '-', '1'], endless] := by simp
    rw [run_best, foldlM_round_of_error inside answer_endless] at ran
    cases ran

end Matcher

end Pkgsrc
