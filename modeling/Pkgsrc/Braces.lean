import Pkgsrc.Text

/-!
# Pkgsrc.Braces -- groups of alternatives

Groups nest, and a comma counts only on the level of its own group.  Putting one alternative in the
place of the first group gives a text with fewer opening braces (`count_around_lt`), so that a text
can be expanded group by group.
-/

namespace Pkgsrc

set_option autoImplicit false

namespace Braces

/-! ## Balance -/

/-- The position of a brace without partner: the first closing one that nothing opened, or
else the last opening one that nothing closes.  `opened` are the open positions so far. -/
def unpairedFrom (position : Nat) (opened : List Nat) : Text → Option Nat
  | [] => opened.head?
  | c :: rest =>
    if c = '{' then unpairedFrom (position + 1) (position :: opened) rest
    else if c = '}' then
      match opened with
      | [] => some position
      | _ :: outer => unpairedFrom (position + 1) outer rest
    else unpairedFrom (position + 1) opened rest

def unpaired? (text : Text) : Option Nat :=
  unpairedFrom 0 [] text

/-! ## The inside of a group -/

/-- What follows an opening brace: the alternatives, and the text behind the closing brace. -/
structure Body where
  first : Text
  others : List Text
  after : Text
  deriving DecidableEq, Repr

namespace Body

def alternatives (body : Body) : List Text :=
  body.first :: body.others

def push (c : Char) (body : Body) : Body :=
  ⟨c :: body.first, body.others, body.after⟩

def cut (body : Body) : Body :=
  ⟨[], body.alternatives, body.after⟩

/-- `depth` groups are open inside the group. -/
def read (depth : Nat) : Text → Body
  | [] => ⟨[], [], []⟩
  | c :: rest =>
    if c = '{' then (read (depth + 1) rest).push c
    else if c = '}' then
      match depth with
      | 0 => ⟨[], [], rest⟩
      | outer + 1 => (read outer rest).push c
    else if c = ',' ∧ depth = 0 then (read 0 rest).cut
    else (read depth rest).push c

theorem count_read (depth : Nat) (text : Text) :
    (read depth text).alternatives.flatten.count '{' + (read depth text).after.count '{' =
      text.count '{' := by
  fun_induction read depth text with
  | case1 => simp [alternatives]
  | case2 depth rest ih =>
    simp only [alternatives, push, List.flatten_cons, List.count_append, List.count_cons] at ih ⊢
    omega
  | case3 => simp [alternatives]
  | case4 rest outer inside ih =>
    simp only [alternatives, push, List.flatten_cons, List.count_append, List.count_cons] at ih ⊢
    omega
  | case5 depth c rest opens closes ends ih =>
    simp only [alternatives, cut, List.flatten_cons, List.count_append, List.count_cons,
      List.count_nil, beq_iff_eq, if_neg opens] at ih ⊢
    omega
  | case6 depth c rest opens closes inside ih =>
    simp only [alternatives, push, List.flatten_cons, List.count_append, List.count_cons] at ih ⊢
    omega

end Body

/-! ## The first group -/

structure Group where
  before : Text
  alternatives : List Text
  after : Text
  deriving DecidableEq, Repr

def Group.around (group : Group) (alternative : Text) : Text :=
  group.before ++ alternative ++ group.after

def Group.start (group : Group) : Nat :=
  group.before.length

/-- The position after the group's closing brace, in the text that it was found in. -/
def Group.stop (group : Group) (text : Text) : Nat :=
  text.length - group.after.length

/-- The position of the comma or brace that follows the first empty alternative, where
`position` is that of the first character of the first alternative. -/
def emptyFrom (position : Nat) : List Text → Option Nat
  | [] => none
  | alternative :: others =>
    if alternative = [] then some position
    else emptyFrom (position + alternative.length + 1) others

inductive Fault where
  | unbalanced (position : Nat)
  | emptyAlternative (position : Nat)
  deriving DecidableEq, Repr

/-- The braces of the text have to be balanced. -/
def findGroup (text : Text) : Option Group :=
  match text.dropWhile (· != '{') with
  | [] => none
  | _ :: inside =>
    some ⟨text.takeWhile (· != '{'), (Body.read 0 inside).alternatives, (Body.read 0 inside).after⟩

def firstGroup (text : Text) : Except Fault (Option Group) :=
  match unpaired? text with
  | some position => .error (.unbalanced position)
  | none =>
    match findGroup text with
    | none => .ok none
    | some group =>
      match emptyFrom (group.start + 1) group.alternatives with
      | some position => .error (.emptyAlternative position)
      | none => .ok (some group)

theorem findGroup_of_firstGroup {text : Text} {group : Group}
    (found : firstGroup text = .ok (some group)) : findGroup text = some group := by
  unfold firstGroup at found
  split at found
  · cases found
  · split at found
    · cases found
    · split at found
      · cases found
      · cases found; assumption

/-- **One alternative in the place of its group leaves fewer opening braces.** -/
theorem count_around_lt {text alternative : Text} {group : Group}
    (found : firstGroup text = .ok (some group)) (held : alternative ∈ group.alternatives) :
    (group.around alternative).count '{' < text.count '{' := by
  have found := findGroup_of_firstGroup found
  unfold findGroup at found
  split at found
  · cases found
  · rename_i brace inside shape
    cases found
    have opens : brace = '{' := by
      have := List.head?_dropWhile_not (· != '{') text
      rw [shape] at this
      simpa using this
    have whole : text.count '{' =
        (text.takeWhile (· != '{')).count '{' + (1 + inside.count '{') := by
      conv => lhs; rw [← List.takeWhile_append_dropWhile (p := (· != '{')) (l := text)]
      rw [List.count_append, shape, opens]
      simp
      omega
    have inner := Body.count_read 0 inside
    have part : alternative.count '{' ≤ (Body.read 0 inside).alternatives.flatten.count '{' :=
      (List.sublist_flatten_of_mem held).count_le '{'
    simp only [Group.around, List.count_append, whole]
    omega

end Braces

end Pkgsrc
