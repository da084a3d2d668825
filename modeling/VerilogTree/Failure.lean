/-!
# Failures of allocation

A failure says that the ledger could not serve a request. It is a value that a builder keeps and
reports at the end; it never stops the building.
-/

namespace VerilogTree

/-- Why a table could not grow. -/
inductive GrowthFailure where
  | capacityOverflow
deriving DecidableEq

def GrowthFailure.message : GrowthFailure → String
  | .capacityOverflow =>
    "memory allocation failed because the computed capacity exceeded the collection's maximum"

/-- What goes wrong while a tree is built, through no fault of the caller. -/
inductive Failure where
  /-- The ledger is full. -/
  | nodeLimitExceeded (limit : Nat)
  /-- The ledger's table could not grow by the requested number of entries. -/
  | allocationFailed (requested : Nat) (cause : GrowthFailure)
  /-- Building came to its end with failures behind it. -/
  | buildFailed (failures : List Failure)

def Failure.message : Failure → String
  | .nodeLimitExceeded limit => s!"arena node limit of {limit} reached"
  | .allocationFailed requested cause =>
    let reason := cause.message
    s!"failed to reserve ledger space for {requested} node(s): {reason}"
  | .buildFailed failures =>
    let count := failures.length
    s!"AST building failed due to {count} error(s)"

end VerilogTree
