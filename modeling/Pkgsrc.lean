import Pkgsrc.Main
import Pkgsrc.Operand
import Pkgsrc.Version.Sorting
import Pkgsrc.Command.Line
import Pkgsrc.Proofs.Glob.Walk
import Pkgsrc.Proofs.Glob.Moves
import Pkgsrc.Proofs.Version.Lexicographic
import Pkgsrc.Proofs.Matcher.Answer
import Pkgsrc.Proofs.Pattern.Base
import Pkgsrc.Matcher.Step
import Pkgsrc.Proofs.Pattern.Decision
import Pkgsrc.Proofs.Matcher.Ledger
import Pkgsrc.Proofs.Matcher.Serving
import Pkgsrc.Proofs.Matcher.Best
import Pkgsrc.Proofs.Glob.Seam
import Pkgsrc.Proofs.Glob.Writing
import Pkgsrc.Proofs.Pattern.Cutting
import Pkgsrc.Proofs.Pattern.Grammar
import Pkgsrc.Proofs.Pattern.RoundTrip
import Pkgsrc.Proofs.Version.Circles
import Pkgsrc.Proofs.Matcher.Relations
import Pkgsrc.Source.Step
import Pkgsrc.Proofs.Source.Remote
import Pkgsrc.Proofs.Command.Session
import Pkgsrc.Proofs.Source.Listing
import Pkgsrc.Proofs.Command.Line
import Pkgsrc.Proofs.Command.Scan
import Pkgsrc.Proofs.Operand.Symmetry
import Pkgsrc.Proofs.Depend.RoundTrip
import Pkgsrc.Proofs.Version.Runs
import Pkgsrc.Proofs.Version.Spelling
import Pkgsrc.Proofs.Version.Extension
import Pkgsrc.Proofs.Version.Revision
import Pkgsrc.Proofs.Version.Sorted
import Pkgsrc.Proofs.Matcher.Newest
import Pkgsrc.Proofs.PkgName.Classes
import Pkgsrc.Proofs.Glob.Reading
import Pkgsrc.Proofs.Pattern.Groups
import Pkgsrc.Proofs.Pattern.Blame
import Pkgsrc.Proofs.PkgPath.Forms
import Pkgsrc.Proofs.Braces.Cut
import Pkgsrc.Proofs.Source.Entries
import Pkgsrc.Proofs.Source.Naming
import Pkgsrc.Proofs.Command.Matches
