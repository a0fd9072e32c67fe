/-!
# Size hints
-/

namespace CanonicalText

/-- Bounds on how many items come before the next end; no upper bound is known if it is `none`. -/
structure SizeHint where
  lower : UInt64
  upper : Option UInt64
deriving DecidableEq

end CanonicalText
