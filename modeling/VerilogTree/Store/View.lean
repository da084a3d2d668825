import VerilogTree.Store

/-!
# Views

A view of a node shows its fields. The nodes in them are shown as references at depth zero, and as
views of one depth less otherwise.
-/

namespace VerilogTree.Store

/-- The view of a node, to a depth. -/
def view (s : Store) : Nat → AnyHandle → Shape NodeRef
  | depth, h =>
    match s.node? h.slot with
    | none => .node (s.ref h)
    | some node =>
      let child : AnyHandle → Shape NodeRef := match depth with
        | 0 => fun c => .node (s.ref c)
        | d + 1 => s.view d
      .record (("node", .word node.kind.name) :: ("id", .number node.id) ::
        Shape.bindFields child node.body.fields)

/-- A value of a node's field, with the nodes in it as references. -/
def shown {α : Type} [Shaped α] (s : Store) (value : α) : Shape NodeRef :=
  (shape value).bind fun h => .node (s.ref h)

end VerilogTree.Store
