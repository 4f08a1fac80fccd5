import Latent.Calendar.Text
import Latent.Node.Error

/-!
# Failures on the wire
-/

namespace Latent

/-- Why a value is not written, or a text not read. -/
inductive WireError where
  | noWireForm (time : TimeOfDay)
  | notJson
  | invalidRecord (op : Operator) (cause : BuildError)
  | notAMapping (actual : KindSet)
  deriving DecidableEq

/-- What is said of a failure. -/
def WireError.message : WireError → String
  | noWireForm time =>
    "JSON error: time of day " ++ String.ofList time.text ++ " has no wire representation"
  | notJson => "JSON error"
  | invalidRecord op cause => "Invalid " ++ op.name ++ " record: " ++ cause.message
  | notAMapping actual => "Context must be a mapping, got " ++ actual.text

end Latent
