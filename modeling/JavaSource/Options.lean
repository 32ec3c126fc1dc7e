/-!
# Layout options
-/

namespace JavaSource

/-- How a tree is laid out as text. -/
structure Options where
  /-- One level of indentation. -/
  indent : String := "    "
  /-- What ends a line. -/
  lineSeparator : String := "\n"
  /-- Whether the members of a type have an empty line between them. -/
  blankLines : Bool := true
  deriving DecidableEq

end JavaSource
