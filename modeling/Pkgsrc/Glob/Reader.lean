import Pkgsrc.Glob.Token

/-!
# Pkgsrc.Glob.Reader -- the tokens of a written glob

`[` opens a set, up to the next `]`, and `!` or `^` right after it takes the complement.  The first
member may be `]` itself, and a `-` is one right before the closing `]`.  A backslash takes the next
character literally, inside and outside sets; as the last character of the glob it stands for
itself.

A fault keeps the part of the glob that starts at the set.
-/

namespace Pkgsrc

set_option autoImplicit false

namespace Glob

inductive SetFault where
  | unterminated
  | reversed (range : CharRange)
  deriving DecidableEq, Repr

structure Unreadable where
  fault : SetFault
  rest : Text
  deriving DecidableEq, Repr

/-! ## Characters -/

def readChar (c : Char) : Text → Char × Text
  | [] => (c, [])
  | d :: rest => if c = '\\' then (d, rest) else (c, d :: rest)

/-- What a reader leaves is an end of what it was given. -/
theorem readChar_suffix (c : Char) (rest : Text) : (readChar c rest).2 <:+ rest := by
  cases rest with
  | nil => exact List.suffix_refl _
  | cons d rest => by_cases escapes : c = '\\' <;> simp [readChar, escapes]

theorem length_readChar_le (c : Char) (rest : Text) :
    (readChar c rest).2.length ≤ rest.length :=
  (readChar_suffix c rest).length_le

/-- Only a backslash looks at the next character. -/
theorem readChar_of_ne {c : Char} (other : c ≠ '\\') (rest : Text) : readChar c rest = (c, rest) := by
  cases rest with
  | nil => rfl
  | cons d rest => simp [readChar, other]

/-! ## Sets -/

/-- The member of a set whose first character has been read: a range when a `-` follows that
is not the last character of the set. -/
def memberFrom (low : Char) : Text → CharRange × Text
  | '-' :: d :: rest =>
    if d = ']' then (⟨low, low⟩, '-' :: d :: rest)
    else (⟨low, (readChar d rest).1⟩, (readChar d rest).2)
  | rest => (⟨low, low⟩, rest)

theorem memberFrom_suffix (low : Char) (rest : Text) : (memberFrom low rest).2 <:+ rest := by
  fun_cases memberFrom low rest with
  | case1 rest => exact List.suffix_refl _
  | case2 d rest closing =>
    exact (readChar_suffix d rest).trans ((List.suffix_cons d rest).trans (List.suffix_cons '-' _))
  | case3 => exact List.suffix_refl _

def readMember (c : Char) (rest : Text) : CharRange × Text :=
  memberFrom (readChar c rest).1 (readChar c rest).2

theorem readMember_suffix (c : Char) (rest : Text) : (readMember c rest).2 <:+ rest :=
  (memberFrom_suffix _ _).trans (readChar_suffix c rest)

theorem length_readMember_le (c : Char) (rest : Text) :
    (readMember c rest).2.length ≤ rest.length :=
  (readMember_suffix c rest).length_le

/-- At the `start` of the set a `]` is a member. -/
def readMembers (start : Bool) : Text → Except SetFault (List CharRange × Text)
  | [] => .error .unterminated
  | c :: rest =>
    if c = ']' ∧ start = false then .ok ([], rest)
    else if (readMember c rest).1.last < (readMember c rest).1.first then
      .error (.reversed (readMember c rest).1)
    else
      match readMembers false (readMember c rest).2 with
      | .error fault => .error fault
      | .ok (ranges, after) => .ok ((readMember c rest).1 :: ranges, after)
termination_by text => text.length
decreasing_by
  have := length_readMember_le c rest
  simp only [List.length_cons]
  omega

theorem suffix_of_readMembers {start : Bool} {text after : Text} {ranges : List CharRange}
    (read : readMembers start text = .ok (ranges, after)) : ']' :: after <:+ text := by
  fun_induction readMembers start text generalizing ranges after with
  | case1 => cases read
  | case2 start c rest closing =>
    cases read
    obtain ⟨rfl, -⟩ := closing
    exact List.suffix_refl _
  | case3 => cases read
  | case4 => cases read
  | case5 start c rest closing ordered inner end_ found ih =>
    cases read
    exact (ih found).trans ((readMember_suffix c rest).trans (List.suffix_cons c rest))

def readNegation : Text → Bool × Text
  | '!' :: rest => (true, rest)
  | '^' :: rest => (true, rest)
  | rest => (false, rest)

theorem readNegation_suffix (text : Text) : (readNegation text).2 <:+ text := by
  fun_cases readNegation text <;> simp

def readSet (text : Text) : Except SetFault (CharSet × Text) :=
  match readMembers true (readNegation text).2 with
  | .error fault => .error fault
  | .ok (ranges, after) => .ok (⟨ranges, (readNegation text).1⟩, after)

theorem suffix_of_readSet {text after : Text} {set : CharSet}
    (read : readSet text = .ok (set, after)) : ']' :: after <:+ text := by
  unfold readSet at read
  split at read
  · cases read
  · rename_i ranges end_ found
    cases read
    exact (suffix_of_readMembers found).trans (readNegation_suffix text)

theorem length_of_readSet {text after : Text} {set : CharSet}
    (read : readSet text = .ok (set, after)) : after.length < text.length :=
  Nat.lt_of_succ_le (suffix_of_readSet read).length_le

/-! ## Tokens -/

def readTokens : Text → Except Unreadable (List Token)
  | [] => .ok []
  | c :: rest =>
    if c = '*' then (readTokens rest).map Token.starThen
    else if c = '?' then (readTokens rest).map (.single .any :: ·)
    else if c = '[' then
      match _read : readSet rest with
      | .error fault => .error ⟨fault, c :: rest⟩
      | .ok (set, after) => (readTokens after).map (.single (.set set) :: ·)
    else (readTokens (readChar c rest).2).map (.single (.literal (readChar c rest).1) :: ·)
termination_by text => text.length
decreasing_by
  · simp
  · simp
  · have := length_of_readSet _read
    simp only [List.length_cons]
    omega
  · have := length_readChar_le c rest
    simp only [List.length_cons]
    omega

theorem readTokens_star (rest : Text) :
    readTokens ('*' :: rest) = (readTokens rest).map Token.starThen := by
  rw [readTokens, if_pos rfl]

theorem readTokens_any (rest : Text) :
    readTokens ('?' :: rest) = (readTokens rest).map (.single .any :: ·) := by
  rw [readTokens, if_neg (by decide), if_pos rfl]

theorem readTokens_set {rest after : Text} {set : CharSet}
    (closed : readSet rest = .ok (set, after)) :
    readTokens ('[' :: rest) = (readTokens after).map (.single (.set set) :: ·) := by
  rw [readTokens, if_neg (by decide), if_neg (by decide), if_pos rfl]
  split
  · rename_i found
    cases closed.symm.trans found
  · rename_i found
    cases closed.symm.trans found
    rfl

theorem readTokens_char {c : Char} (notStar : c ≠ '*') (notAny : c ≠ '?') (notSet : c ≠ '[')
    (rest : Text) :
    readTokens (c :: rest) =
      (readTokens (readChar c rest).2).map (.single (.literal (readChar c rest).1) :: ·) := by
  rw [readTokens, if_neg notStar, if_neg notAny, if_neg notSet]

end Glob

end Pkgsrc
