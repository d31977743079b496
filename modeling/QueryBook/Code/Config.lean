/-!
# Options of a compilation
-/

namespace QueryBook

/-- The options of one compilation. -/
structure Config where
  /-- Refuse a placeholder that is no parameter. -/
  strictPlaceholders : Bool := false
  /-- Generate test setup routines and entry points. -/
  emitTests : Bool := true
  /-- More text for the docstring of the module. -/
  moduleDocstring : String := ""
  /-- The package that generated code imports its support from. -/
  runtimePackage : String := "sqlfn.runtime"
deriving DecidableEq, Repr

end QueryBook
