import TableGroups.Fault

/-!
# Execution configuration

What the caller of a query may choose.  Every choice has a default, so a caller may say nothing at
all; a time budget of zero is refused, since no query could run under it.
-/

namespace TableGroups

/-- The choices of a query's caller. -/
structure ExecutionConfig where
  /-- The time budget in milliseconds; without one there is no deadline. -/
  timeoutMs : Option Nat
  /-- Whether intersections check that their inputs come in order. -/
  checkInputOrder : Bool
  /-- Whether cursors report what they do. -/
  recordMetrics : Bool
  deriving DecidableEq

/-- Why a configuration is refused. -/
inductive ConfigError where
  /-- The text is not a configuration. -/
  | unreadable
  /-- The time budget is zero. -/
  | zeroTimeout
  deriving DecidableEq

namespace ExecutionConfig

/-- No deadline, and both order checks and metrics. -/
def standard : ExecutionConfig := ⟨none, true, true⟩

/-- Refuse a time budget of zero. -/
def validate (config : ExecutionConfig) : Except ConfigError ExecutionConfig :=
  if config.timeoutMs = some 0 then .error .zeroTimeout else .ok config

/-- The time budget in whole seconds. -/
def timeoutSeconds? (config : ExecutionConfig) : Option Nat :=
  config.timeoutMs.map (· / 1000)

end ExecutionConfig

namespace ConfigError

/-- The failure as a sentence. -/
def message : ConfigError → String
  | .unreadable => "invalid execution config: unreadable"
  | .zeroTimeout => "invalid execution config: timeout_ms must be positive"

/-- The failure as it is reported. -/
def toFault (error : ConfigError) : Fault :=
  ⟨.invalidArgument, .config, error.message⟩

end ConfigError

end TableGroups
