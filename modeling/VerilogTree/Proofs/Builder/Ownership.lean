import VerilogTree.Proofs.Builder.Calls
import VerilogTree.Proofs.Production.Handles

/-!
# Handles that belong to a builder

The ledger of a builder has recorded the nodes of its current tree. Their handles belong to the
builder, and so do those of nodes without an id, which no ledger records. Such handles are told
apart by their ids, none of them is refused, and they stay with the builder up to the next release.
-/

namespace VerilogTree.Builder

/-- The node of the handle is the one that the ledger has recorded under its id, or it has no
id. -/
def Owns (b : Builder) (x : AnyHandle) : Prop :=
  ∃ node ∈ b.store.node? x.slot, node.body.kind = x.kind ∧
    (node.id ≠ 0 → b.ledger.node? node.id = some ⟨x, node.id⟩)
deriving Decidable

namespace Owns

variable {b : Builder} {x y : AnyHandle} {handles : List AnyHandle}

theorem lt_size (h : b.Owns x) : x.slot < b.store.size := by
  obtain ⟨node, hnode, -, -⟩ := h
  exact Store.lt_size_of_node? hnode

theorem node?_idAt (h : b.Owns x) (hid : b.store.idAt x.slot ≠ 0) :
    b.ledger.node? (b.store.idAt x.slot) = some ⟨x, b.store.idAt x.slot⟩ := by
  obtain ⟨node, hnode, -, hrecorded⟩ := h
  have hat : b.store.idAt x.slot = node.id := by
    rw [Store.idAt, hnode]
    rfl
  rw [hat] at hid ⊢
  exact hrecorded hid

theorem isLive_idAt (h : b.Owns x) (hid : b.store.idAt x.slot ≠ 0) :
    b.ledger.isLive (b.store.idAt x.slot) = true := by
  obtain ⟨e, he, -⟩ := Option.bind_eq_some_iff.mp (h.node?_idAt hid)
  exact Ledger.isLive_of_eq_some he

/-- The handles of a builder are told apart by their ids, if they have any. -/
theorem eq_of_idAt_eq (hx : b.Owns x) (hy : b.Owns y) (hid : b.store.idAt x.slot ≠ 0)
    (heq : b.store.idAt x.slot = b.store.idAt y.slot) : x = y := by
  have hnode := hx.node?_idAt hid
  rw [heq, hy.node?_idAt (heq ▸ hid), Option.some.injEq] at hnode
  exact congrArg NodeRef.toAnyHandle hnode.symm

/-- They are told apart by their positions as well. -/
theorem eq_of_slot_eq (hx : b.Owns x) (hy : b.Owns y) (heq : x.slot = y.slot) : x = y := by
  obtain ⟨node, hnode, hkind, -⟩ := hx
  obtain ⟨node', hnode', hkind', -⟩ := hy
  rw [heq] at hnode
  obtain rfl := Option.some.inj (hnode.symm.trans hnode')
  cases x
  cases y
  simp_all

/-- Ledgers with at least the live ids of the builder refuse none of its handles. -/
theorem isReleased_idsOf {l : Ledger} (hhandles : ∀ x ∈ handles, b.Owns x)
    (hlive : ∀ {id}, b.ledger.isLive id = true → l.isLive id = true) :
    ∀ c ∈ b.store.idsOf handles, l.isReleased c = false := by
  intro c hc
  obtain ⟨x, hx, rfl⟩ := List.mem_map.mp hc
  exact Ledger.isReleased_eq_false fun hid => hlive ((hhandles x hx).isLive_idAt hid)

theorem mem_idsOf (hy : b.Owns y) (hhandles : ∀ x ∈ handles, b.Owns x)
    (hid : b.store.idAt y.slot ≠ 0) :
    b.store.idAt y.slot ∈ b.store.idsOf handles ↔ y ∈ handles := by
  simp only [Store.idsOf, List.mem_map]
  constructor
  · rintro ⟨x, hx, heq⟩
    rwa [hy.eq_of_idAt_eq (hhandles x hx) hid heq.symm]
  · intro hmem
    exact ⟨y, hmem, rfl⟩

/-! ## Steps -/

theorem constructed (h : b.Owns x) (body : Body) : (b.constructed body).Owns x := by
  have hlt := h.lt_size
  obtain ⟨node, hnode, hkind, hrecorded⟩ := h
  refine ⟨node, ?_, hkind, fun hpos => constructed_node?_of_some (hrecorded hpos) body⟩
  change (b.store.add _).node? x.slot = some node
  rw [Store.node?_add, if_neg (Nat.ne_of_lt hlt)]
  exact hnode

theorem idAt_constructed (h : b.Owns x) (body : Body) :
    (b.constructed body).store.idAt x.slot = b.store.idAt x.slot :=
  Store.idAt_add_of_lt h.lt_size _

theorem extended (h : b.Owns x) (e : Extension) : (b.extended e).Owns x := by
  obtain ⟨node, hnode, hkind, hrecorded⟩ := h
  have hledger : ∀ id, (b.extended e).ledger.node? id = b.ledger.node? id :=
    (b.extendedLedger_linksOnly e).node
  have hstore : (b.extended e).store.node? x.slot =
      if x.slot = e.target.slot then some ⟨node.id, e.apply node.body⟩ else some node := by
    rw [Builder.extended, Store.node?_modify, hnode]
    rfl
  by_cases hslot : x.slot = e.target.slot
  · rw [if_pos hslot] at hstore
    exact ⟨_, hstore, (e.kind_apply _).trans hkind, fun hpos => (hledger _).trans (hrecorded hpos)⟩
  · rw [if_neg hslot] at hstore
    exact ⟨_, hstore, hkind, fun hpos => (hledger _).trans (hrecorded hpos)⟩

end Owns

/-- A construction from handles of the builder succeeds, unless they do not fit together. -/
theorem construct_of_owned {b : Builder} {p : Production} {body : Body}
    (hbody : p.body b.store = .ok body) (hargs : ∀ x ∈ p.arguments, b.Owns x) :
    b.construct p = (b.constructed body, .ok (b.newRef body)) := by
  have hlinks : ∀ x ∈ body.links, b.Owns x :=
    fun x hx => hargs x (Production.links_subset_arguments hbody hx)
  exact construct_of_live hbody (Owns.isReleased_idsOf hlinks id)

theorem extend_of_owned {b : Builder} {e : Extension} (htarget : b.Owns e.target)
    (hlinks : ∀ x ∈ e.links, b.Owns x) : b.extend e = (b.extended e, .ok ()) :=
  extend_of_live (Ledger.isReleased_eq_false htarget.isLive_idAt)
    (Owns.isReleased_idsOf hlinks id)

end VerilogTree.Builder
