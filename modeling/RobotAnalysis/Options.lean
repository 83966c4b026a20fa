/-!
# Options

The choices that change answers of the analysis.
-/
namespace RobotAnalysis

/-- The options of an analysis, each with its default. -/
structure Options where
  /-- Offer keywords with every word capitalized. -/
  capitalizeKeywords : Bool := true
  /-- Follow the imports of imported documents. -/
  allowTransitiveImports : Bool := true
  deriving DecidableEq, Repr

end RobotAnalysis
