import VerilogTree.Proofs.Builder.Calls
import VerilogTree.Proofs.Ledger.Ancestry

/-!
# Parents form a forest

Nothing looks for circles when nodes are linked. None arises from constructions: a new node has no
parent, so that nothing is above it, whatever is linked under it. An extension links under a node
that may have ancestors, and closes a circle exactly when it adds one of them.
-/

namespace VerilogTree.Builder

variable {b : Builder}

theorem granted_acyclic (h : b.ledger.WellFormed) (hacyclic : b.ledger.Acyclic) :
    b.granted.ledger.Acyclic := by
  have hfree := h.acyclic_iff.mp hacyclic
  exact (granted_wellFormed h).acyclic_iff.mpr (hfree.congr b.granted_parent?)

/-- An id that was just taken has no parent, and neither has zero. -/
theorem granted_parent?_newId (h : b.ledger.WellFormed) :
    b.granted.ledger.parent? b.newId = none := by
  rw [granted_parent?, Ledger.parent?]
  by_cases hid : b.newId = 0
  · rw [hid, Ledger.entry?_eq_none_of_not_isLive h.isLive_zero]
    rfl
  · rw [entry?_newId hid]
    rfl

theorem linkedLedger_acyclic (h : b.ledger.WellFormed) (hacyclic : b.ledger.Acyclic)
    (body : Body) : (b.linkedLedger body).Acyclic :=
  (granted_wellFormed h).acyclic_linkAll_of_root (granted_acyclic h hacyclic)
    (granted_parent?_newId h) _

/-- A construction keeps a ledger acyclic, also when one of its parts is refused. -/
theorem construct_acyclic (h : b.ledger.WellFormed) (hacyclic : b.ledger.Acyclic)
    (p : Production) : (b.construct p).1.ledger.Acyclic := by
  obtain ⟨_, -, heq⟩ | ⟨body, _, -, -, heq⟩ | ⟨body, -, -, heq⟩ := b.construct_cases p
  · rw [heq]
    exact hacyclic
  · rw [heq]
    exact linkedLedger_acyclic h hacyclic body
  · rw [heq]
    have hlinked := linkedLedger_wellFormed h body
    have hfree := hlinked.acyclic_iff.mp (linkedLedger_acyclic h hacyclic body)
    exact (constructed_wellFormed h body).acyclic_iff.mpr
      (hfree.congr (b.constructed_parent? body))

/-- An extension that is not refused keeps a ledger acyclic exactly when it adds no ancestor of the
node that it extends, unless that node is not in the ledger. -/
theorem extend_acyclic_iff (h : b.ledger.WellFormed) (hacyclic : b.ledger.Acyclic)
    {e : Extension} (hok : (b.extend e).2 = .ok ()) :
    (b.extend e).1.ledger.Acyclic ↔
      b.ledger.isLive (b.store.idAt e.target.slot) = false ∨
        ∀ x ∈ e.links, ¬ b.ledger.IsAncestor (b.store.idAt x.slot) (b.store.idAt e.target.slot) := by
  obtain ⟨-, heq⟩ | ⟨_, -, -, heq⟩ | ⟨-, hlink, heq⟩ := b.extend_cases e
  · rw [heq] at hok
    cases hok
  · rw [heq] at hok
    cases hok
  · rw [heq]
    change (b.ledger.linkAll _ _).1.Acyclic ↔ _
    rw [h.acyclic_linkAll_iff hacyclic hlink, Store.idsOf, List.forall_mem_map]

/-- What links, constructions and extensions do to a ledger whose parents form a forest. -/
structure ForestSpec (b : Builder) : Prop where
  link : ∀ c p after, b.ledger.link c p = .ok after →
    (after.Acyclic ↔
      (c = p ∨ b.ledger.isLive c = false ∨ b.ledger.isLive p = false) ∨
        ¬ b.ledger.IsAncestor c p)
  construct : ∀ p, (b.construct p).1.ledger.Acyclic
  extend : ∀ e, (b.extend e).2 = .ok () →
    ((b.extend e).1.ledger.Acyclic ↔
      b.ledger.isLive (b.store.idAt e.target.slot) = false ∨
        ∀ x ∈ e.links, ¬ b.ledger.IsAncestor (b.store.idAt x.slot) (b.store.idAt e.target.slot))

/-- In every acyclic ledger that is reached by any operations, and with any store of nodes: only a
link of an ancestor of its own parent closes a circle, no construction does, and an extension does
exactly when it adds an ancestor of the node that it extends. -/
theorem forest_of_acyclic (config : LedgerConfig) (ops : List Ledger.Operation) (store : Store)
    (failures : List Failure) :
    let b : Builder := { store, ledger := (Ledger.run { config } ops).1, failures }
    b.ledger.Acyclic → ForestSpec b := by
  intro b hacyclic
  have h : b.ledger.WellFormed := ((Ledger.observed_new config).run ops).wellFormed
  exact ⟨fun _ _ _ => h.acyclic_link_iff hacyclic, construct_acyclic h hacyclic,
    fun _ => extend_acyclic_iff h hacyclic⟩

/-- A concatenation that holds another one, and is then added to it. -/
theorem forest_of_acyclic_nested :
    let inner : Node := ⟨1, .expression (.concatenation .expression none .empty)⟩
    let outer : Node :=
      ⟨2, .expression (.concatenation .expression none (.ofList [.concatenation ⟨0⟩]))⟩
    let b : Builder :=
      { store := ⟨#[inner, outer]⟩
        ledger := (Ledger.run {} [.allocate, .allocate, .link 1 2]).1 }
    let e : Extension := .item ⟨0⟩ (.concatenation ⟨1⟩)
    b.ledger.Acyclic ∧ ForestSpec b ∧ (b.extend e).2 = .ok () ∧
      ¬ (b.extend e).1.ledger.Acyclic := by
  intro inner outer b e
  have hspec : ForestSpec b := forest_of_acyclic {} _ _ _ (by decide)
  refine ⟨by decide, hspec, rfl, ?_⟩
  rw [hspec.extend e rfl, not_or]
  refine ⟨by decide, ?_⟩
  intro hnone
  exact hnone ⟨.concatenation, 1⟩ (by decide) ⟨0, rfl⟩

end VerilogTree.Builder
