import Pkgsrc.Value

/-! # Pkgsrc.Text.Template -- sentences with places `%s` for values -/

namespace Pkgsrc

set_option autoImplicit false

namespace Template

/-- Nothing when there are more or fewer values than places. -/
def fill : Text → List Value → Option Text
  | [], [] => some []
  | [], _ :: _ => none
  | '%' :: '%' :: rest, values => (fill rest values).map ('%' :: ·)
  | '%' :: 's' :: rest, value :: values => (fill rest values).map (value.spelled ++ ·)
  | '%' :: _, _ => none
  | c :: rest, values => (fill rest values).map (c :: ·)

end Template

end Pkgsrc
