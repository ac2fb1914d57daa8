import TableGroups.Config
import TableGroups.Metrics

/-!
# Query contexts

A query runs under a context: its configuration, whether its caller has cancelled it, whether its
deadline has passed, and the transaction it belongs to.  Cancellation is asked for through a token
that several contexts may share, and deadlines pass on their own; a `QueryContext` is what a cursor
sees of both at the moment of a call.
-/

namespace TableGroups

/-- A flag by which a caller stops the queries that were given it. -/
structure CancellationToken where
  cancelled : Bool
  deriving DecidableEq

namespace CancellationToken

/-- A token that has not been used. -/
def fresh : CancellationToken := ⟨false⟩

/-- Stop the queries that were given the token. -/
def cancel (_ : CancellationToken) : CancellationToken := ⟨true⟩

end CancellationToken

/-- What a query is allowed at the moment of a call. -/
structure QueryContext where
  config : ExecutionConfig
  token : CancellationToken
  expired : Bool
  transaction : Option Nat
  deriving DecidableEq

/-- Why a query must not go on. -/
inductive Interruption where
  | cancelled
  | timedOut
  deriving DecidableEq

namespace QueryContext

/-- A context that nothing has stopped yet. -/
def ofConfig (config : ExecutionConfig) : QueryContext :=
  ⟨config, .fresh, false, none⟩

/-- The context of a query that asked for nothing special. -/
def standard : QueryContext := ofConfig .standard

/-- Why the query must not go on; a cancelled query is not asked for its deadline. -/
def interruption? (context : QueryContext) : Option Interruption :=
  if context.token.cancelled then some .cancelled
  else if context.expired then some .timedOut
  else none

/-- The events of a context that records metrics; of any other, none. -/
def report (context : QueryContext) (events : List Event) : List Event :=
  if context.config.recordMetrics then events else []

/-- What asking for an interruption reports. -/
def interruptionEvents (context : QueryContext) : List Event :=
  match context.interruption? with
  | some _ => context.report [.cancelled]
  | none => []

end QueryContext

/-- An interruption as it is reported. -/
def Interruption.toFault : Interruption → Fault
  | .cancelled => ⟨.cancelled, .executor, "query cancelled"⟩
  | .timedOut => ⟨.timedOut, .executor, "query timed out"⟩

end TableGroups
