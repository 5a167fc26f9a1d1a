/-! How much a notice in the log matters. -/

namespace StorageSwitch

/-- The weight of a notice. -/
inductive Severity where
  | debug
  | info
  | warn
  deriving DecidableEq, Repr

/-- The word for the weight. -/
def Severity.name : Severity → String
  | .debug => "DEBUG"
  | .info => "INFO"
  | .warn => "WARN"

end StorageSwitch
