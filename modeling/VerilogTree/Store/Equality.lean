import VerilogTree.Store

/-!
# Equality of nodes

Two handles are equal when they are the same, or when their nodes have the same kind, id and
fields, where nodes in the fields are compared in the same way. The comparison goes through the
fields in order and ends at the first difference.
-/

namespace VerilogTree.Store

/-- Equality down to a number of levels; below them only the same handles are equal. -/
def equalWithin (s : Store) : Nat → AnyHandle → AnyHandle → Bool
  | 0, a, b => a.slot == b.slot
  | levels + 1, a, b =>
    a.slot == b.slot ||
      match s.node? a.slot, s.node? b.slot with
      | some m, some n =>
        m.kind == n.kind && m.id == n.id &&
          Shape.agreeFields (s.equalWithin levels) m.body.fields n.body.fields
      | _, _ => false

/-- Equality of two nodes. There are no more pairs of nodes than the square of the size, and a
comparison that meets a pair again below itself has no end, so one that has an end has it within
these levels. -/
def equal (s : Store) (a b : AnyHandle) : Bool := s.equalWithin (s.size * s.size + 1) a b

end VerilogTree.Store
