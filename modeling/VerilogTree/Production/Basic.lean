import VerilogTree.Production.Design
import VerilogTree.Production.Expression
import VerilogTree.Production.Gate
import VerilogTree.Production.Primitive
import VerilogTree.Production.Statement
import VerilogTree.Production.Timing

/-!
# Productions

A production is one reduction of the grammar with its parts: what a parser hands over when it has
recognised a construct. It makes one node, unless its parts do not fit together.
-/

namespace VerilogTree

/-- The productions by family. A specify path is made of its parts as they are. -/
inductive Production where
  | expression (production : ExpressionProduction)
  | path (node : PathNode)
  | timing (production : TimingProduction)
  | statement (production : StatementProduction)
  | primitive (production : PrimitiveProduction)
  | gate (production : GateProduction)
  | design (production : DesignProduction)

/-- The body of the node that a production makes. The store says what the handles among its parts
stand for. -/
def Production.body (s : Store) : Production → Except Misuse Body
  | .expression production => (production.node s).map .expression
  | .path node => .ok (.path node)
  | .timing production => production.node.map .timing
  | .statement production => (production.node s).map .statement
  | .primitive production => production.node.map .primitive
  | .gate production => production.node.map .gate
  | .design production => .ok (.design production.node)

end VerilogTree
