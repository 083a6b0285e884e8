/-!
# Log records

What a build pass reports about its own work, apart from its results.
-/

namespace StyleSieve

/-- How much a record matters, in rising order. -/
inductive Severity where
  | debug
  | info
  | warning
  deriving DecidableEq

namespace Severity

/-- The name of a severity. -/
def name : Severity → String
  | debug => "DEBUG"
  | info => "INFO"
  | warning => "WARNING"

/-- The place of a severity in the order. -/
def rank : Severity → Nat
  | debug => 0
  | info => 1
  | warning => 2

end Severity

/-- A message from a part of the pass. -/
structure LogRecord where
  severity : Severity
  source : String
  message : String
  deriving DecidableEq

namespace LogRecord

/-- The line that shows a record. -/
def line (r : LogRecord) : String := r.severity.name ++ " " ++ r.source ++ ": " ++ r.message

end LogRecord

end StyleSieve
