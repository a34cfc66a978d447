import Pkgsrc.Matching
import Pkgsrc.Pattern.Parse
import Pkgsrc.PkgPath

/-!
# Pkgsrc.Depend -- dependency entries

An entry is a pattern and a path with a colon between them, `mktools-[0-9]*:../../pkgtools/mktools`.
The path is looked at first, and the pattern is read only if there is one (`ofText_eq_ok_iff`).
-/

namespace Pkgsrc

set_option autoImplicit false

structure Depend where
  wanted : Text
  pkgpath : PkgPath
  pattern : Pattern
  isParse : Pattern.parse wanted = .ok pattern

namespace Depend

inductive Fault where
  | invalid (entry : Text)
  | malformed (fault : Malformed)
  deriving DecidableEq, Repr

def Fault.report : Fault → Report
  | .invalid entry => .ofText .invalidDepend entry
  | .malformed fault => .ofMalformed fault

def ofPattern (wanted : Text) (pkgpath : PkgPath) : Except Fault Depend :=
  match isParse : Pattern.parse wanted with
  | .error fault => .error (.malformed fault)
  | .ok pattern => .ok ⟨wanted, pkgpath, pattern, isParse⟩

def ofText (entry : Text) : Except Fault Depend :=
  match Text.fields ':' entry with
  | [wanted, path] =>
    match PkgPath.ofText? path with
    | some pkgpath => ofPattern wanted pkgpath
    | none => .error (.invalid entry)
  | _ => .error (.invalid entry)

def text (depend : Depend) : Text :=
  depend.wanted ++ ':' :: depend.pkgpath.fullText

theorem ofPattern_eq_ok_iff {wanted : Text} {pkgpath : PkgPath} {depend : Depend} :
    ofPattern wanted pkgpath = .ok depend ↔
      depend.wanted = wanted ∧ depend.pkgpath = pkgpath := by
  constructor
  · intro done
    unfold ofPattern at done
    split at done
    · cases done
    · cases done
      exact ⟨rfl, rfl⟩
  · rintro ⟨rfl, rfl⟩
    have isParse := depend.isParse
    unfold ofPattern
    split
    · rename_i failed
      cases isParse.symm.trans failed
    · rename_i found
      cases isParse.symm.trans found
      rfl

/-- A text is an entry when its only colon stands between a pattern and a path. -/
theorem ofText_eq_ok_iff {entry : Text} {depend : Depend} :
    ofText entry = .ok depend ↔
      ∃ path, Text.fields ':' entry = [depend.wanted, path] ∧
        PkgPath.ofText? path = some depend.pkgpath := by
  constructor
  · intro read
    unfold ofText at read
    split at read
    · rename_i wanted path cut
      split at read
      · rename_i pkgpath found
        obtain ⟨rfl, rfl⟩ := ofPattern_eq_ok_iff.1 read
        exact ⟨path, cut, found⟩
      · cases read
    · cases read
  · rintro ⟨path, cut, found⟩
    simp only [ofText, cut, found]
    exact ofPattern_eq_ok_iff.2 ⟨rfl, rfl⟩

/-- A malformed name does not satisfy a dependency. -/
def accepts (depend : Depend) (candidate : Text) : Except Matching.Fault Bool :=
  match depend.pattern.accepts candidate with
  | .error (.malformedName _) => .ok false
  | result => result

def same (a b : Depend) : Bool :=
  a.pattern.same b.pattern && a.pkgpath == b.pkgpath

instance : Hashable Depend where
  hash depend := mixHash (hash depend.pattern) (hash depend.pkgpath)

end Depend

end Pkgsrc
