import Pkgsrc.Glob.Cursor
import Pkgsrc.Malformed

/-!
# Pkgsrc.Glob -- compiled shell globs

A glob matches whole texts, case counted, and a slash is a character like any other.  A compiled
glob carries the proof that its tokens are those of its text.
-/

namespace Pkgsrc

set_option autoImplicit false

structure Glob where
  text : Text
  tokens : List Glob.Token
  compiled : Glob.readTokens text = .ok tokens
  deriving DecidableEq, Repr

namespace Glob

def compile (text : Text) : Except Malformed Glob :=
  match read : readTokens text with
  | .error stuck => .error ⟨text, .set stuck.fault, text.length - stuck.rest.length⟩
  | .ok tokens => .ok ⟨text, tokens, read⟩

def accepts (glob : Glob) (text : Text) : Bool :=
  matchTokens glob.tokens text

theorem compile_of_readTokens {text : Text} {tokens : List Token}
    (read : readTokens text = .ok tokens) : compile text = .ok ⟨text, tokens, read⟩ := by
  unfold compile
  split
  · rename_i stuck
    cases read.symm.trans stuck
  · rename_i found
    cases read.symm.trans found
    rfl

theorem text_of_compile {text : Text} {glob : Glob} (done : compile text = .ok glob) :
    glob.text = text := by
  unfold compile at done
  split at done
  · cases done
  · cases done; rfl

end Glob

end Pkgsrc
