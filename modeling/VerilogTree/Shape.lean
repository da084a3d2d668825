import VerilogTree.Deque
import VerilogTree.Enumeration
import VerilogTree.Handle

/-!
# Shapes

A shape is the content of a node in a form that is the same for every kind: words, numbers, flags,
lists and named fields, with nodes at the leaves. Views of a node, the nodes that it holds and the
equality of two nodes are all read off its shape.
-/

namespace VerilogTree

inductive Shape (α : Type) where
  | absent
  | flag (value : Bool)
  | number (value : Nat)
  | word (text : String)
  | node (leaf : α)
  | list (items : List (Shape α))
  | record (fields : List (String × Shape α))

namespace Shape

variable {α β : Type}

/-- A value under the tag that says which alternative it is. -/
def tagged (tag : String) (value : Shape α) : Shape α := record [(tag, value)]

/-! ## Leaves -/

mutual

/-- The nodes of a shape, in order. -/
def leaves : Shape α → List α
  | .node leaf => [leaf]
  | .list items => leavesOfList items
  | .record fields => leavesOfFields fields
  | .absent | .flag _ | .number _ | .word _ => []

def leavesOfList : List (Shape α) → List α
  | [] => []
  | item :: rest => item.leaves ++ leavesOfList rest

def leavesOfFields : List (String × Shape α) → List α
  | [] => []
  | (_, value) :: rest => value.leaves ++ leavesOfFields rest

end

/-! ## Substitution -/

mutual

/-- Puts a shape in the place of each node. -/
def bind (f : α → Shape β) : Shape α → Shape β
  | .absent => .absent
  | .flag value => .flag value
  | .number value => .number value
  | .word text => .word text
  | .node leaf => f leaf
  | .list items => .list (bindList f items)
  | .record fields => .record (bindFields f fields)

def bindList (f : α → Shape β) : List (Shape α) → List (Shape β)
  | [] => []
  | item :: rest => item.bind f :: bindList f rest

def bindFields (f : α → Shape β) : List (String × Shape α) → List (String × Shape β)
  | [] => []
  | (name, value) :: rest => (name, value.bind f) :: bindFields f rest

end

/-! ## Agreement -/

mutual

/-- Do two shapes agree, given which nodes do? Lists of different lengths are told apart before
any of their items is looked at, and the first difference ends the comparison. -/
def agree (same : α → α → Bool) : Shape α → Shape α → Bool
  | .absent, .absent => true
  | .flag a, .flag b => a == b
  | .number a, .number b => a == b
  | .word a, .word b => a == b
  | .node a, .node b => same a b
  | .list as, .list bs => as.length == bs.length && agreeList same as bs
  | .record as, .record bs => agreeFields same as bs
  | _, _ => false

def agreeList (same : α → α → Bool) : List (Shape α) → List (Shape α) → Bool
  | [], [] => true
  | a :: as, b :: bs => a.agree same b && agreeList same as bs
  | _, _ => false

def agreeFields (same : α → α → Bool) :
    List (String × Shape α) → List (String × Shape α) → Bool
  | [], [] => true
  | (m, a) :: as, (n, b) :: bs => m == n && a.agree same b && agreeFields same as bs
  | _, _ => false

end

end Shape

/-! ## Values with a shape -/

/-- Types whose values stand in the fields of nodes. -/
class Shaped (α : Type) where
  shape : α → Shape AnyHandle

export Shaped (shape)

/-- Types whose values may hold handles. -/
class Holds (α : Type) where
  /-- The handles inside a value, in order. -/
  held : α → List AnyHandle

export Holds (held)

instance : Shaped Bool := ⟨.flag⟩

instance : Shaped Nat := ⟨.number⟩

instance : Shaped String := ⟨.word⟩

instance {α : Type} [Enumeration α] : Shaped α := ⟨fun a => .word (Enumeration.name a)⟩

instance {k : Kind} : Shaped (Handle k) := ⟨fun h => .node h.erase⟩

instance : Shaped Expression := ⟨fun e => .node e.erase⟩

instance {α : Type} [Shaped α] : Shaped (Option α) := ⟨fun a => a.elim .absent shape⟩

instance {α : Type} [Shaped α] : Shaped (List α) := ⟨fun as => .list (as.map shape)⟩

instance {α : Type} [Shaped α] : Shaped (Deque α) := ⟨fun d => shape d.toList⟩

instance {k : Kind} : Holds (Handle k) := ⟨fun h => [h.erase]⟩

instance : Holds Expression := ⟨fun e => [e.erase]⟩

instance {α : Type} [Holds α] : Holds (Option α) := ⟨fun a => a.elim [] held⟩

instance {α : Type} [Holds α] : Holds (List α) := ⟨fun as => as.flatMap held⟩

instance {α : Type} [Holds α] : Holds (Deque α) := ⟨fun d => held d.toList⟩

end VerilogTree
