import VerilogTree.Node.Design
import VerilogTree.Node.Expression
import VerilogTree.Node.Gate
import VerilogTree.Node.Path
import VerilogTree.Node.Primitive
import VerilogTree.Node.Statement
import VerilogTree.Node.Timing

/-!
# Nodes

A node is an id and a body. An id of zero says that no ledger has a place for the node. `stored`
and `links` both list the handles in a body: the first as they stand in its fields, the second as
they are linked when the node is made.
-/

namespace VerilogTree

/-- The content of a node, by family. -/
inductive Body where
  | expression (node : ExpressionNode)
  | path (node : PathNode)
  | timing (node : TimingNode)
  | statement (node : StatementNode)
  | primitive (node : PrimitiveNode)
  | gate (node : GateNode)
  | design (node : DesignNode)

structure Node where
  id : Nat
  body : Body

namespace Body

def kind : Body → Kind
  | .expression node => node.kind
  | .path node => node.kind
  | .timing node => node.kind
  | .statement node => node.kind
  | .primitive node => node.kind
  | .gate node => node.kind
  | .design node => node.kind

/-- The fields in the order in which they are shown and compared. -/
def fields : Body → List (String × Shape AnyHandle)
  | .expression node => node.fields
  | .path node => node.fields
  | .timing node => node.fields
  | .statement node => node.fields
  | .primitive node => node.fields
  | .gate node => node.fields
  | .design node => node.fields

/-- The handles that stand in the fields. -/
def stored (b : Body) : List AnyHandle := Shape.leavesOfFields b.fields

/-- The handles in the order in which they are linked when the node is made. -/
def links : Body → List AnyHandle
  | .expression node => node.links
  | .path node => node.links
  | .timing node => node.links
  | .statement node => node.links
  | .primitive node => node.links
  | .gate node => node.links
  | .design node => node.links

end Body

namespace Node

def kind (n : Node) : Kind := n.body.kind

end Node

end VerilogTree
