/-
# Pkgsrc.Proofs.Source.Remote -- a remote file is a stored one from its first download on

A remote file has no content until a download of it succeeds.  Whatever is asked of it before, a
download is tried for every step but the one that asks for its name, and the file stays as it was
opened (`after_of_unanswered`).  The step whose download succeeds finds the whole content of that
response from its start (`perform_unopened_of_ok`), and from there on the remote file and a stored
one with this content take the same steps side by side, while the web rests
(`results_eq_stored_of_downloaded`).
-/
import Pkgsrc.Proofs.Results
import Pkgsrc.Source.Step
import Mathlib.Data.List.Induction

namespace Pkgsrc

set_option autoImplicit false

namespace Web

/-! ## What requests come to -/

/-- The responses that wait under a URL. -/
def responses (url : Text) : List (Text × List Response) → List Response
  | [] => []
  | (other, held) :: rest => if other = url then held else responses url rest

/-- What a download comes to when so many responses have been used before. -/
def outcome (url : Text) (web : Web) (used : Nat) : Except Cause Bytes :=
  match (responses url web.waiting)[used]? with
  | none => .error (.exchange "unreachable".toList)
  | some response => response.content

theorem outcome_eq_ok_iff {url : Text} {web : Web} {used : Nat} {bytes : Bytes} :
    web.outcome url used = .ok bytes ↔
      ∃ response, (responses url web.waiting)[used]? = some response ∧
        response.failure = none ∧ response.chunks.flatten = bytes := by
  rw [outcome]
  cases (responses url web.waiting)[used]? with
  | none => simp
  | some response => cases held : response.failure <;> simp [Response.content, held]

theorem take?_fst (url : Text) (waiting : List (Text × List Response)) :
    (take? url waiting).1 = (responses url waiting)[0]? := by
  induction waiting with
  | nil => rfl
  | cons entry rest ih =>
      obtain ⟨other, held⟩ := entry
      rw [responses]
      by_cases same : other = url
      · cases held <;> simp [take?, same]
      · cases held <;> simp [take?, same, ih]

theorem responses_take? (url : Text) (waiting : List (Text × List Response)) :
    responses url (take? url waiting).2 = (responses url waiting).tail := by
  induction waiting with
  | nil => rfl
  | cons entry rest ih =>
      obtain ⟨other, held⟩ := entry
      by_cases same : other = url
      · cases held <;> simp [take?, same, responses]
      · cases held <;> simp [take?, same, responses, ih]

theorem request_fst (url : Text) (web : Web) : (request url web).1 = web.outcome url 0 := by
  rw [outcome, ← take?_fst]
  rfl

theorem outcome_request (url : Text) (web : Web) (used : Nat) :
    (request url web).2.outcome url used = web.outcome url (used + 1) := by
  simp only [outcome, request]
  rw [responses_take?, List.getElem?_tail]

theorem run_note_bind {α : Type} (what : Note) (next : Unit → StateM Web α) (web : Web) :
    (note what >>= next).run web = (next ()).run { web with notes := web.notes.push what } :=
  rfl

/-- A download asks once, gets the next response, and leaves the others to wait. -/
theorem exists_download (url : Text) (web : Web) :
    ∃ later, (download url).run web = (web.outcome url 0, later) ∧
      later.requested = web.requested ++ [url] ∧
      ∀ used, later.outcome url used = web.outcome url (used + 1) := by
  let noted : Web := { web with notes := web.notes.push (.downloading url) }
  have first : ((request url).run noted).1 = web.outcome url 0 := request_fst url noted
  have requested : ((request url).run noted).2.requested = web.requested ++ [url] := rfl
  have others : ∀ used, ((request url).run noted).2.outcome url used = web.outcome url (used + 1) :=
    outcome_request url noted
  rw [← first, download, run_note_bind]
  change ∃ later, (request url >>= _).run noted = _ ∧ _
  rw [StateT.run_bind]
  generalize (request url).run noted = answered at requested others ⊢
  rcases answered with ⟨cause | bytes, later⟩
  · exact ⟨later, rfl, requested, others⟩
  · exact ⟨_, rfl, requested, others⟩

end Web

namespace File

open Web

/-! ## One step -/

/-- A step that is not for the name is for the buffer. -/
theorem exists_perform_eq_buffer_bind {step : Step} (used : step ≠ .name) :
    ∃ next, perform step = buffer >>= next := by
  cases step with
  | read count => exact ⟨_, bind_assoc _ _ _⟩
  | seek offset whence => exact ⟨_, bind_assoc _ _ _⟩
  | tell => exact ⟨_, bind_assoc _ _ _⟩
  | name => exact absurd rfl used

/-- To ask for the name is to do nothing else. -/
theorem perform_name (use : Use) : (perform .name).run use = (.ok (.name use.file.name), use) :=
  rfl

theorem buffer_unopened (name : Text) (web : Web) :
    buffer.run ⟨.remote name none, web⟩ =
      match (download name).run web with
      | (.error cause, later) => (.error (.download cause), ⟨.remote name none, later⟩)
      | (.ok bytes, later) =>
        (.ok (some (.ofBytes bytes)), ⟨.remote name (some (.ofBytes bytes)), later⟩) :=
  rfl

/-- A step whose download fails: it fails as well, and the file stays as it was opened. -/
theorem perform_unopened_of_error {name : Text} {web later : Web} {cause : Cause} {step : Step}
    (used : step ≠ .name) (failed : (download name).run web = (.error cause, later)) :
    (perform step).run ⟨.remote name none, web⟩ =
      (.error (.download cause), ⟨.remote name none, later⟩) := by
  obtain ⟨next, same⟩ := exists_perform_eq_buffer_bind used
  rw [same, run_bind, buffer_unopened, failed]

/-- A step whose download succeeds finds the content from its start. -/
theorem perform_unopened_of_ok {name : Text} {web later : Web} {bytes : Bytes} {step : Step}
    (used : step ≠ .name) (got : (download name).run web = (.ok bytes, later)) :
    (perform step).run ⟨.remote name none, web⟩ =
      (perform step).run ⟨.remote name (some (.ofBytes bytes)), later⟩ := by
  obtain ⟨next, same⟩ := exists_perform_eq_buffer_bind used
  rw [same, run_bind, run_bind, buffer_unopened, got]
  rfl

/-- With the same buffer, a remote file and a stored one take a step side by side. -/
theorem exists_perform_downloaded (name : Text) (content : Buffer) (web other : Web)
    (step : Step) :
    ∃ result moved,
      (perform step).run ⟨.remote name (some content), web⟩ =
        (result, ⟨.remote name (some moved), web⟩) ∧
      (perform step).run ⟨.stored name content, other⟩ = (result, ⟨.stored name moved, other⟩) := by
  have remote : buffer.run ⟨.remote name (some content), web⟩ =
      (.ok (some content), ⟨.remote name (some content), web⟩) := rfl
  have stored : buffer.run ⟨.stored name content, other⟩ =
      (.ok (some content), ⟨.stored name content, other⟩) := rfl
  cases step with
  | read count =>
      rw [perform, run_bind, run_bind, read, run_bind, run_bind, remote, stored]
      dsimp only
      cases content.read count with
      | error fault => exact ⟨.error (.buffer fault), content, rfl, rfl⟩
      | ok pair => exact ⟨.ok (.bytes pair.1), pair.2, rfl, rfl⟩
  | seek offset whence =>
      rw [perform, run_bind, run_bind, seek, run_bind, run_bind, remote, stored]
      dsimp only
      cases content.seek offset whence with
      | error fault => exact ⟨.error (.buffer fault), content, rfl, rfl⟩
      | ok moved => exact ⟨.ok .done, moved, rfl, rfl⟩
  | tell => exact ⟨.ok (.position content.position), content, rfl, rfl⟩
  | name => exact ⟨.ok (.name name), content, rfl, rfl⟩

/-! ## Runs of steps -/

/-- The number of steps that are for the buffer. -/
def fetches (steps : List Step) : Nat :=
  steps.countP (· ≠ .name)

@[simp] theorem fetches_name_cons (steps : List Step) :
    fetches (.name :: steps) = fetches steps :=
  rfl

theorem fetches_cons {step : Step} (used : step ≠ .name) (steps : List Step) :
    fetches (step :: steps) = fetches steps + 1 := by
  rw [fetches, List.countP_cons_of_pos (by simpa using used)]
  rfl

theorem fetches_concat_name (steps : List Step) : fetches (steps ++ [.name]) = fetches steps := by
  rw [fetches, List.countP_append]
  rfl

theorem fetches_concat {step : Step} (used : step ≠ .name) (steps : List Step) :
    fetches (steps ++ [step]) = fetches steps + 1 := by
  rw [fetches, List.countP_append]
  exact congrArg (fetches steps + ·) (fetches_cons used [])

/-- Every download that these steps ask for fails. -/
def Unanswered (name : Text) (web : Web) (steps : List Step) : Prop :=
  ∀ used < fetches steps, ∃ cause, web.outcome name used = .error cause

theorem after_cons (use : Use) (step : Step) (steps : List Step) :
    after use (step :: steps) = after (afterStep use step) steps :=
  rfl

theorem after_append (use : Use) (earlier later : List Step) :
    after use (earlier ++ later) = after (after use earlier) later :=
  List.foldl_append

/-- Steps without a successful download leave the file as it was opened, and each of them but the
ones for the name has asked the web once. -/
theorem after_of_unanswered {name : Text} {steps : List Step} :
    ∀ {web : Web}, Unanswered name web steps →
      ∃ later, after ⟨.remote name none, web⟩ steps = ⟨.remote name none, later⟩ ∧
        later.requested = web.requested ++ List.replicate (fetches steps) name ∧
        ∀ used, later.outcome name used = web.outcome name (fetches steps + used) := by
  induction steps with
  | nil =>
      intro web _
      exact ⟨web, rfl, by simp [fetches], fun used => by simp [fetches]⟩
  | cons step steps ih =>
      intro web unanswered
      by_cases named : step = .name
      · subst named
        exact ih unanswered
      · rw [Unanswered, fetches_cons named] at unanswered
        obtain ⟨cause, fails⟩ := unanswered 0 (Nat.succ_pos _)
        obtain ⟨next, downloaded, asked, moved⟩ := exists_download name web
        rw [fails] at downloaded
        have one : afterStep ⟨.remote name none, web⟩ step = ⟨.remote name none, next⟩ := by
          rw [afterStep, perform_unopened_of_error named downloaded]
        have others : Unanswered name next steps := by
          intro used inside
          rw [moved]
          exact unanswered (used + 1) (Nat.succ_lt_succ inside)
        obtain ⟨later, reached, requested, left⟩ := ih others
        refine ⟨later, ?_, ?_, fun used => ?_⟩
        · rw [after_cons, one, reached]
        · rw [requested, asked, fetches_cons named, List.replicate_succ, List.append_assoc,
            List.singleton_append]
        · rw [left, moved, fetches_cons named]
          congr 1
          omega

/-- With the same buffer, a remote file and a stored one come to the same by the same steps, and
the web rests. -/
theorem results_eq_stored_of_downloaded (name : Text) (web other : Web) (steps : List Step) :
    ∀ content,
      results ⟨.remote name (some content), web⟩ steps =
        results ⟨.stored name content, other⟩ steps ∧
      (after ⟨.remote name (some content), web⟩ steps).web = web := by
  induction steps with
  | nil => exact fun content => ⟨rfl, rfl⟩
  | cons step steps ih =>
      intro content
      obtain ⟨result, moved, remote, stored⟩ :=
        exists_perform_downloaded name content web other step
      obtain ⟨same, rests⟩ := ih moved
      constructor
      · rw [results, results, afterStep, afterStep, remote, stored, same]
      · rw [after_cons, afterStep, remote, rests]

/-- Some steps get no content, or there is a first one that does. -/
theorem unanswered_or_exists_answered (name : Text) (web : Web) (steps : List Step) :
    Unanswered name web steps ∨
      ∃ earlier step later bytes, steps = earlier ++ step :: later ∧ step ≠ .name ∧
        Unanswered name web earlier ∧ web.outcome name (fetches earlier) = .ok bytes := by
  induction steps using List.reverseRecOn with
  | nil => exact Or.inl fun used inside => absurd inside (Nat.not_lt_zero used)
  | append_singleton steps step ih =>
      rcases ih with unanswered | ⟨earlier, first, later, bytes, rfl, rest⟩
      · by_cases named : step = .name
        · left
          subst named
          rw [Unanswered, fetches_concat_name]
          exact unanswered
        · cases asked : web.outcome name (fetches steps) with
          | ok bytes => exact Or.inr ⟨steps, step, [], bytes, rfl, named, unanswered, asked⟩
          | error cause =>
              left
              rw [Unanswered, fetches_concat named]
              intro used inside
              rcases Nat.lt_succ_iff_lt_or_eq.1 inside with before | rfl
              · exact unanswered used before
              · exact ⟨cause, asked⟩
      · right
        exact ⟨earlier, first, later ++ [step], bytes, by simp, rest⟩

/-- A step behind those without a successful download, whose download fails as well. -/
theorem perform_after_unanswered {name : Text} {web later : Web} {steps : List Step} {step : Step}
    {cause : Cause} (left : ∀ used, later.outcome name used = web.outcome name (fetches steps + used))
    (named : step ≠ .name) (fails : web.outcome name (fetches steps) = .error cause) :
    ∃ next, (perform step).run ⟨.remote name none, later⟩ =
        (.error (.download cause), ⟨.remote name none, next⟩) ∧
      next.requested = later.requested ++ [name] := by
  obtain ⟨next, downloaded, asked, -⟩ := exists_download name later
  rw [left, Nat.add_zero, fails] at downloaded
  exact ⟨next, perform_unopened_of_error named downloaded, asked⟩

/-- From the first step whose download succeeds. -/
theorem results_after_unanswered {name : Text} {web : Web} {earlier : List Step} {step : Step}
    {response : Response} (unanswered : Unanswered name web earlier) (named : step ≠ .name)
    (waits : (responses name web.waiting)[fetches earlier]? = some response)
    (whole : response.failure = none) (later : List Step) :
    (∀ other, results (after ⟨.remote name none, web⟩ earlier) (step :: later) =
      results ⟨.stored name (.ofBytes response.chunks.flatten), other⟩ (step :: later)) ∧
    (after ⟨.remote name none, web⟩ (earlier ++ step :: later)).web.requested =
      web.requested ++ List.replicate (fetches earlier + 1) name := by
  obtain ⟨before, reached, requested, left⟩ := after_of_unanswered unanswered
  obtain ⟨next, downloaded, asked, -⟩ := exists_download name before
  have got : before.outcome name 0 = .ok response.chunks.flatten := by
    rw [left, Nat.add_zero]
    exact outcome_eq_ok_iff.2 ⟨response, waits, whole, rfl⟩
  rw [got] at downloaded
  have found : (perform step).run ⟨.remote name none, before⟩ =
      (perform step).run ⟨.remote name (some (.ofBytes response.chunks.flatten)), next⟩ :=
    perform_unopened_of_ok named downloaded
  have one : afterStep ⟨.remote name none, before⟩ step =
      afterStep ⟨.remote name (some (.ofBytes response.chunks.flatten)), next⟩ step := by
    rw [afterStep, afterStep, found]
  constructor
  · intro other
    rw [← (results_eq_stored_of_downloaded name next other (step :: later) _).1, reached, results,
      results, found, one]
  · have rests := (results_eq_stored_of_downloaded name next next (step :: later)
      (.ofBytes response.chunks.flatten)).2
    rw [after_cons, ← one] at rests
    rw [after_append, reached, after_cons, rests, asked, requested, List.append_assoc,
      ← List.replicate_succ']

/-- A remote file against a stored one.  To ask for its name is free.  As long as no download
succeeds, every other step tries one, fails as it does, and leaves the file as it was opened; only a
failure of the exchange is reported.  From the step whose download succeeds, all results are the
ones of a stored file with the chunks of that response, used from its start, and nothing more is
requested.  Any steps are of the first kind, or have a first step of the second. -/
theorem remote_is_stored_from_first_download (name : Text) (web : Web) :
    (∀ use : Use, (perform .name).run use = (.ok (.name use.file.name), use)) ∧
    (∀ steps, Unanswered name web steps →
      ∃ later, after ⟨.remote name none, web⟩ steps = ⟨.remote name none, later⟩ ∧
        later.requested = web.requested ++ List.replicate (fetches steps) name ∧
        ∀ step ≠ .name, ∀ cause, web.outcome name (fetches steps) = .error cause →
          ∃ next, (perform step).run ⟨.remote name none, later⟩ =
              (.error (.download cause), ⟨.remote name none, next⟩) ∧
            next.requested = later.requested ++ [name]) ∧
    (∀ cause, (Fault.download cause).report? =
      match cause with
      | .exchange message => some (.ofText .remoteFile message)
      | .system => none
      | .value => none) ∧
    (∀ earlier step later response, Unanswered name web earlier → step ≠ .name →
      (responses name web.waiting)[fetches earlier]? = some response → response.failure = none →
        (∀ other, results (after ⟨.remote name none, web⟩ earlier) (step :: later) =
          results ⟨.stored name (.ofBytes response.chunks.flatten), other⟩ (step :: later)) ∧
        (after ⟨.remote name none, web⟩ (earlier ++ step :: later)).web.requested =
          web.requested ++ List.replicate (fetches earlier + 1) name) ∧
    (∀ steps, Unanswered name web steps ∨
      ∃ earlier step later response, steps = earlier ++ step :: later ∧ step ≠ .name ∧
        Unanswered name web earlier ∧
        (responses name web.waiting)[fetches earlier]? = some response ∧
        response.failure = none) := by
  refine ⟨perform_name, ?_, ?_, ?_, ?_⟩
  · intro steps unanswered
    obtain ⟨later, reached, requested, left⟩ := after_of_unanswered unanswered
    refine ⟨later, reached, requested, ?_⟩
    intro step named cause fails
    exact perform_after_unanswered left named fails
  · intro cause
    cases cause <;> rfl
  · intro earlier step later response unanswered named waits whole
    exact results_after_unanswered unanswered named waits whole later
  · intro steps
    rcases unanswered_or_exists_answered name web steps with
      unanswered | ⟨earlier, step, later, bytes, shape, named, unanswered, got⟩
    · exact Or.inl unanswered
    · obtain ⟨response, waits, whole, -⟩ := outcome_eq_ok_iff.1 got
      exact Or.inr ⟨earlier, step, later, response, shape, named, unanswered, waits, whole⟩

/-- The first response breaks off behind two chunks, the second one is whole. -/
def brokenThenWhole : Web :=
  ⟨[(['u'], [⟨[[1], [2]], some (.exchange "broken".toList)⟩, ⟨[[1], [2, 3]], none⟩])], [], #[]⟩

theorem remote_after_broken_download :
    Unanswered ['u'] brokenThenWhole [] ∧ Unanswered ['u'] brokenThenWhole [.tell, .name] ∧
    (∃ next, (perform .tell).run ⟨.remote ['u'] none, brokenThenWhole⟩ =
        (.error (.download (.exchange "broken".toList)), ⟨.remote ['u'] none, next⟩) ∧
      next.requested = [['u']]) ∧
    results (after ⟨.remote ['u'] none, brokenThenWhole⟩ [.tell, .name]) [.read (some 2), .tell] =
      results ⟨.stored ['u'] (.ofBytes [1, 2, 3]), .silent⟩ [.read (some 2), .tell] ∧
    (after ⟨.remote ['u'] none, brokenThenWhole⟩
      [.tell, .name, .read (some 2), .tell]).web.requested = [['u'], ['u']] := by
  obtain ⟨-, failing, -, answered, -⟩ := remote_is_stored_from_first_download ['u'] brokenThenWhole
  have unopened : Unanswered ['u'] brokenThenWhole [] := fun used inside =>
    absurd inside (Nat.not_lt_zero used)
  have broken : Unanswered ['u'] brokenThenWhole [.tell, .name] := by
    intro used inside
    obtain rfl : used = 0 := Nat.lt_one_iff.1 inside
    exact ⟨_, rfl⟩
  obtain ⟨later, reached, -, fails⟩ := failing [] unopened
  obtain rfl : brokenThenWhole = later := (Use.mk.inj reached).2
  obtain ⟨same, requested⟩ :=
    answered [.tell, .name] (.read (some 2)) [.tell] _ broken (by decide) rfl rfl
  exact ⟨unopened, broken, fails .tell (by decide) _ rfl, same .silent, requested⟩

end File

end Pkgsrc
