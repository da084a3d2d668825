import VerilogTree.Kind
import VerilogTree.Discriminant.Expression

/-!
# Handles

A handle is a position in the store of nodes. Two handles are the same node exactly when their
positions agree, whatever the ids and the contents of the nodes are.
-/

namespace VerilogTree

/-- A handle to a node of kind `k`. -/
structure Handle (k : Kind) where
  slot : Nat
deriving DecidableEq

/-- A handle together with the kind of its node. -/
structure AnyHandle where
  kind : Kind
  slot : Nat
deriving DecidableEq

/-- A handle to an expression of any of the eight forms. -/
structure Expression where
  form : ExpressionForm
  slot : Nat
deriving DecidableEq

/-- What a ledger keeps of a node, and what is shown where a node is only referred to. -/
structure NodeRef extends AnyHandle where
  id : Nat
deriving DecidableEq

/-- The kind of the nodes that an expression form stands for. -/
def ExpressionForm.kind : ExpressionForm → Kind
  | .primary => .primaryExpression
  | .unary => .unaryExpression
  | .binary => .binaryExpression
  | .rangeUpDown => .rangeExpression
  | .rangeIndex => .indexExpression
  | .conditional => .conditionalExpression
  | .minTypMax => .minTypMaxExpression
  | .string => .stringExpression

/-- The expression form whose nodes are of a given kind. -/
def ExpressionForm.ofKind? : Kind → Option ExpressionForm
  | .primaryExpression => some .primary
  | .unaryExpression => some .unary
  | .binaryExpression => some .binary
  | .rangeExpression => some .rangeUpDown
  | .indexExpression => some .rangeIndex
  | .conditionalExpression => some .conditional
  | .minTypMaxExpression => some .minTypMax
  | .stringExpression => some .string
  | _ => none

def Handle.erase {k : Kind} (h : Handle k) : AnyHandle := ⟨k, h.slot⟩

def Expression.erase (e : Expression) : AnyHandle := ⟨e.form.kind, e.slot⟩

/-- The handle, if its node is of kind `k`. -/
def AnyHandle.ofKind? (h : AnyHandle) (k : Kind) : Option (Handle k) :=
  if h.kind = k then some ⟨h.slot⟩ else none

/-- The handle, if its node is an expression. -/
def AnyHandle.expression? (h : AnyHandle) : Option Expression :=
  (ExpressionForm.ofKind? h.kind).map fun form => ⟨form, h.slot⟩

end VerilogTree
