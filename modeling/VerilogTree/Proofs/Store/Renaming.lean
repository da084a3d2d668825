import VerilogTree.Proofs.Builder.Calls

/-!
# Renaming ids

Two runs that make the same tree under different ids have stores that differ by a renaming of the
ids of the nodes made on the way. Contents and sharing are the same, since handles are positions.
-/

namespace VerilogTree

def Node.mapId (f : Nat → Nat) (node : Node) : Node := { node with id := f node.id }

def NodeRef.mapId (f : Nat → Nat) (node : NodeRef) : NodeRef := { node with id := f node.id }

/-- A misuse with the ids that it quotes renamed. -/
def Misuse.mapIds (f : Nat → Nat) : Misuse → Misuse
  | .notGranted id => .notGranted (f id)
  | .alreadyRecorded id => .alreadyRecorded (f id)
  | .releasedLink child parent => .releasedLink (f child) (f parent)
  | .releasedTarget growth id => .releasedTarget growth (f id)
  | misuse => misuse

namespace Store

/-- The store with the ids of all nodes from position `first` on renamed. -/
def mapIds (s : Store) (first : Nat) (f : Nat → Nat) : Store :=
  ⟨s.nodes.mapIdx fun slot node => if first ≤ slot then node.mapId f else node⟩

variable {s : Store} {first : Nat} {f : Nat → Nat}

@[simp] theorem size_mapIds : (s.mapIds first f).size = s.size := by
  simp [mapIds, size]

theorem node?_mapIds (slot : Nat) :
    (s.mapIds first f).node? slot =
      (s.node? slot).map fun node => if first ≤ slot then node.mapId f else node := by
  simp [mapIds, node?]

@[simp] theorem body?_mapIds (slot : Nat) : (s.mapIds first f).body? slot = s.body? slot := by
  rw [body?, node?_mapIds, body?]
  cases s.node? slot with
  | none => rfl
  | some node =>
      simp only [Option.map_some, Option.some.injEq]
      split <;> rfl

theorem idAt_mapIds (hf : f 0 = 0) (slot : Nat) :
    (s.mapIds first f).idAt slot = if first ≤ slot then f (s.idAt slot) else s.idAt slot := by
  rw [idAt, node?_mapIds, idAt]
  cases s.node? slot with
  | none => simp [hf]
  | some node =>
      simp only [Option.map_some, Option.elim_some]
      split <;> rfl

/-- A store is known from its nodes. -/
theorem ext_node? {s s' : Store} (h : ∀ slot, s.node? slot = s'.node? slot) : s = s' := by
  cases s
  cases s'
  congr
  exact Array.ext_getElem? h

theorem mapIds_add (h : first ≤ s.size) (node : Node) :
    (s.add node).mapIds first f = (s.mapIds first f).add (node.mapId f) := by
  apply ext_node?
  intro slot
  rw [node?_mapIds, node?_add, node?_add, size_mapIds, node?_mapIds]
  by_cases hslot : slot = s.size
  · simp [hslot, h]
  · simp [hslot]

theorem mapIds_modify (slot : Nat) (g : Body → Body) :
    (s.modify slot g).mapIds first f = (s.mapIds first f).modify slot g := by
  apply ext_node?
  intro x
  rw [node?_mapIds, node?_modify, node?_modify, node?_mapIds]
  by_cases hx : x = slot
  · cases s.node? x with
    | none => simp
    | some node =>
        by_cases hfirst : first ≤ x <;> simp [hx ▸ hfirst, hx, Node.mapId]
  · simp [hx]

theorem mapIds_self (h : s.size ≤ first) : s.mapIds first f = s := by
  apply ext_node?
  intro slot
  rw [node?_mapIds]
  cases hnode : s.node? slot with
  | none => rfl
  | some node =>
      have hslot := lt_size_of_node? hnode
      simp [Nat.not_le.mpr (Nat.lt_of_lt_of_le hslot h)]

end Store

end VerilogTree
