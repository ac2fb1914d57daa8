/-!
# Faults

Whatever goes wrong is reported to a caller as a `Fault`: what kind of failure it is, which part
of the library found it, and a sentence.  The parts themselves fail with causes of their own (an
`IndexError`, a `StoreError`, a `CursorError`, …), each of which has one `toFault`; so the wording
of a failure lives beside its cause and in one place.
-/

namespace TableGroups

/-- What kind of failure a fault is. -/
inductive FaultKind where
  | invalidArgument
  | incomparable
  | cancelled
  | timedOut
  | stateMisuse
  | unsupported
  | invariantViolation
  | notFound
  | internal
  deriving DecidableEq

/-- The kinds of failure. -/
def FaultKind.all : List FaultKind :=
  [.invalidArgument, .incomparable, .cancelled, .timedOut, .stateMisuse, .unsupported,
    .invariantViolation, .notFound, .internal]

/-- How reports name a kind of failure. -/
def FaultKind.label : FaultKind → String
  | .invalidArgument => "invalid_argument"
  | .incomparable => "incomparable"
  | .cancelled => "cancelled"
  | .timedOut => "timed_out"
  | .stateMisuse => "state_misuse"
  | .unsupported => "unsupported"
  | .invariantViolation => "invariant_violation"
  | .notFound => "not_found"
  | .internal => "internal"

/-- The part of the library that found a failure. -/
inductive FaultOrigin where
  | schema
  | index
  | store
  | cursor
  | executor
  | config
  deriving DecidableEq

/-- The parts of the library that find failures. -/
def FaultOrigin.all : List FaultOrigin :=
  [.schema, .index, .store, .cursor, .executor, .config]

/-- How reports name a part of the library. -/
def FaultOrigin.label : FaultOrigin → String
  | .schema => "schema"
  | .index => "index"
  | .store => "store"
  | .cursor => "cursor"
  | .executor => "executor"
  | .config => "config"

/-- A reported failure. -/
structure Fault where
  kind : FaultKind
  origin : FaultOrigin
  message : String
  deriving DecidableEq

namespace Fault

/-- The message with the origin and the kind in front. -/
def full (fault : Fault) : String :=
  fault.origin.label ++ ":" ++ fault.kind.label ++ ": " ++ fault.message

/-- Whether the failure means that a query was stopped, by its caller or by its deadline. -/
def isCancellation (fault : Fault) : Bool :=
  fault.kind == .cancelled || fault.kind == .timedOut

/-- Whether the caller asked for something that cannot be. -/
def isInvalidArgument (fault : Fault) : Bool :=
  fault.kind == .invalidArgument

/-- Something that a store was asked for and does not hold. -/
def notInStore (what : String) : Fault :=
  ⟨.notFound, .store, "not found in store: " ++ what⟩

end Fault

end TableGroups
