import LinearProgram.Decimal.Text
import LinearProgram.Error

namespace LinearProgram

/-!
# The wording of errors
-/

/-- What is said about an error.  Indices count from zero, as they do in the
data that were given. -/
def Error.message : Error Float → String
  | .dimensionMismatch part expected found =>
    part.name ++ " has length " ++ toString found ++ ", expected " ++ toString expected
  | .nonFinite part index =>
    part.name ++ " contains a non-finite value at index " ++ toString index
  | .unknownVariable index => "variable " ++ toString index ++ " is not declared in the model"
  | .noVariables => "problem has no decision variables"
  | .unsupportedSense row => "constraint " ++ toString row ++
      " is not a <= constraint; the plain simplex method only accepts <="
  | .negativeRhs row => "constraint " ++ toString row ++
      " has a negative right hand side; the plain simplex method needs b >= 0"
  | .invalidOption setting value =>
    "invalid solver option " ++ setting.name ++ ": " ++ Decimal.text Decimal.plain value
  | .degeneratePivot row column value => "pivot element at (" ++ toString row ++ ", " ++
      toString column ++ ") is numerically zero: " ++ Decimal.text Decimal.scientific value

end LinearProgram
