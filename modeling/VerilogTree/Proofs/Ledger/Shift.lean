import VerilogTree.Proofs.Ledger.Links
import VerilogTree.Proofs.Store.Renaming

/-!
# Ledgers with shifted ids

A ledger that grants ids from a later one on does to the shifted ids what a new ledger does to its
own. Every operation commutes with the shift, as long as ids do not run out.
-/

namespace VerilogTree

/-- Zero is no id and stays zero; every id moves up by `k`. -/
def shiftId (k id : Nat) : Nat := if id = 0 then 0 else id + k

theorem shiftId_zero (k : Nat) : shiftId k 0 = 0 := rfl

theorem shiftId_of_pos {k id : Nat} (h : 0 < id) : shiftId k id = id + k :=
  if_neg (Nat.ne_of_gt h)

@[simp] theorem shiftId_inj {k id id' : Nat} : shiftId k id = shiftId k id' ↔ id = id' := by
  unfold shiftId
  split <;> split <;> omega

@[simp] theorem shiftId_eq_zero {k id : Nat} : shiftId k id = 0 ↔ id = 0 := by
  unfold shiftId
  split <;> omega

def Entry.shift (k : Nat) (e : Entry) : Entry where
  id := shiftId k e.id
  node := e.node.map (NodeRef.mapId (shiftId k))
  parent := e.parent.map (shiftId k)
  children := e.children.map (shiftId k)

namespace Ledger

/-- The ledger with all its ids shifted. -/
def shift (k : Nat) (l : Ledger) : Ledger :=
  { l with firstId := l.firstId + k, entries := l.entries.map (Entry.shift k) }

/-! ## Answers -/

@[simp] theorem config_shift (k : Nat) (l : Ledger) : (l.shift k).config = l.config := rfl

@[simp] theorem firstId_shift (k : Nat) (l : Ledger) : (l.shift k).firstId = l.firstId + k := rfl

@[simp] theorem size_shift (k : Nat) (l : Ledger) : (l.shift k).size = l.size := by
  simp [shift, size]

theorem nextId_shift (k : Nat) (l : Ledger) : (l.shift k).nextId = l.nextId + k := by
  rw [nextId, nextId, firstId_shift, size_shift]
  omega

theorem nodes_shift (k : Nat) (l : Ledger) :
    (l.shift k).nodes = l.nodes.map (NodeRef.mapId (shiftId k)) := by
  simp only [nodes, shift, Array.toList_map, List.filterMap_map, List.map_filterMap]
  rfl

section

variable {k : Nat} {l : Ledger} (hl : 0 < l.firstId)
include hl

theorem firstId_le_shiftId (id : Nat) :
    (l.shift k).firstId ≤ shiftId k id ↔ l.firstId ≤ id := by
  rw [firstId_shift, shiftId]
  split <;> omega

theorem shiftId_sub {id : Nat} (h : l.firstId ≤ id) :
    shiftId k id - (l.shift k).firstId = id - l.firstId := by
  rw [firstId_shift, shiftId_of_pos (by omega)]
  omega

theorem entry?_shift (id : Nat) :
    Ledger.entry? (l.shift k) (shiftId k id) = (l.entry? id).map (Entry.shift k) := by
  unfold entry?
  by_cases h : l.firstId ≤ id
  · rw [if_pos h, if_pos ((firstId_le_shiftId hl id).mpr h), shiftId_sub hl h]
    simp [shift]
  · rw [if_neg h, if_neg (mt (firstId_le_shiftId hl id).mp h)]
    rfl

theorem node?_shift (id : Nat) :
    (l.shift k).node? (shiftId k id) = (l.node? id).map (NodeRef.mapId (shiftId k)) := by
  rw [node?, entry?_shift hl, node?]
  cases l.entry? id <;> rfl

theorem parent?_shift (id : Nat) :
    (l.shift k).parent? (shiftId k id) = (l.parent? id).map (shiftId k) := by
  rw [parent?, entry?_shift hl, parent?]
  cases l.entry? id <;> rfl

theorem children_shift (id : Nat) :
    (l.shift k).children (shiftId k id) = (l.children id).map (NodeRef.mapId (shiftId k)) := by
  rw [children, entry?_shift hl, children]
  cases l.entry? id with
  | none => rfl
  | some e =>
      simp only [Option.map_some, Entry.shift, List.filterMap_map, List.map_filterMap]
      congr 1
      funext child
      exact node?_shift hl child

theorem isLive_shift (id : Nat) : (l.shift k).isLive (shiftId k id) = l.isLive id := by
  simp [isLive, entry?_shift hl]

theorem isReleased_shift (id : Nat) :
    (l.shift k).isReleased (shiftId k id) = l.isReleased id := by
  rw [Bool.eq_iff_iff, isReleased_iff, isReleased_iff, firstId_shift]
  unfold shiftId
  split <;> omega

/-! ## Changes -/

theorem modify_shift (id : Nat) {f f' : Entry → Entry}
    (hf : ∀ e, (f e).shift k = f' (e.shift k)) :
    (l.modify id f).shift k = (l.shift k).modify (shiftId k id) f' := by
  unfold modify
  by_cases h : l.firstId ≤ id
  · rw [if_pos h, if_pos ((firstId_le_shiftId hl id).mpr h), shiftId_sub hl h]
    simp only [shift]
    congr 1
    apply Array.ext_getElem?
    intro i
    simp only [Array.getElem?_map, Array.getElem?_modify]
    split
    · cases l.entries[i]? <;> simp [hf]
    · rfl
  · rw [if_neg h, if_neg (mt (firstId_le_shiftId hl id).mp h)]

theorem grown_shift : l.grown.shift k = (l.shift k).grown := by
  have hid : shiftId k l.nextId = (l.shift k).nextId := by
    rw [nextId_shift, shiftId_of_pos (by unfold nextId; omega)]
  simp [shift, grown, Entry.shift, hid]

theorem withNode_shift (node : NodeRef) :
    (l.withNode node).shift k = (l.shift k).withNode (node.mapId (shiftId k)) :=
  modify_shift hl _ fun _ => rfl

theorem detach_shift (child : Nat) :
    (l.detach child).shift k = (l.shift k).detach (shiftId k child) := by
  have hne : ∀ x, (shiftId k x != shiftId k child) = (x != child) := by
    intro x
    rw [Bool.eq_iff_iff, bne_iff_ne, bne_iff_ne, ne_eq, shiftId_inj]
  unfold detach
  rw [parent?_shift hl]
  cases l.parent? child with
  | none => rfl
  | some former =>
      apply modify_shift hl
      intro e
      simp only [Entry.shift, List.filter_map, Function.comp_def, hne]

theorem moveUnder_shift (child parent : Nat) :
    (l.moveUnder child parent).shift k =
      (l.shift k).moveUnder (shiftId k child) (shiftId k parent) := by
  have hdetached : 0 < (l.detach child).firstId := (detach_linksOnly l child).firstId ▸ hl
  rw [moveUnder_eq, moveUnder_eq, ← detach_shift hl,
    modify_shift (by rw [firstId_modify]; exact hdetached) parent, modify_shift hdetached child]
  · intro e
    rfl
  · intro e
    simp [Entry.shift]

theorem effective_shift (child parent : Nat) :
    (l.shift k).effective (shiftId k child) (shiftId k parent) = l.effective child parent := by
  rw [Bool.eq_iff_iff, effective_iff, effective_iff, isLive_shift hl, isLive_shift hl, ne_eq,
    shiftId_inj]

theorem linkAll_shift (parent : Nat) (children : List Nat) :
    (l.shift k).linkAll (shiftId k parent) (children.map (shiftId k)) =
      ((l.linkAll parent children).1.shift k,
        (l.linkAll parent children).2.mapError (Misuse.mapIds (shiftId k))) := by
  induction children generalizing l with
  | nil => rfl
  | cons child rest ih =>
      have hreleased : ((l.shift k).isReleased (shiftId k child) ||
          (l.shift k).isReleased (shiftId k parent)) =
          (l.isReleased child || l.isReleased parent) := by
        rw [isReleased_shift hl, isReleased_shift hl]
      rw [List.map_cons, linkAll, linkAll]
      cases h : l.isReleased child || l.isReleased parent with
      | true =>
          rw [link_of_released h, link_of_released (hreleased.trans h)]
          rfl
      | false =>
          rw [link_of_not_released h, link_of_not_released (hreleased.trans h), effective_shift hl]
          simp only
          split
          · rw [← moveUnder_shift hl]
            exact ih ((moveUnder_linksOnly l child parent).firstId ▸ hl)
          · exact ih hl

/-! ## Granting and releasing, while ids do not run out -/

theorem allocate_shift (hmax : l.nextId + k ≤ maxId) :
    (l.shift k).allocate =
      l.allocate.map fun granted => (shiftId k granted.1, granted.2.shift k) := by
  by_cases hroom : l.hasRoom
  · have hroom' : (l.shift k).hasRoom := by
      refine ⟨by simpa using hroom.1, ?_⟩
      rwa [nextId_shift]
    rw [allocate_of_hasRoom hroom, allocate_of_hasRoom hroom', ← grown_shift hl, nextId_shift,
      ← shiftId_of_pos (by unfold nextId; omega)]
    rfl
  · -- There are ids left, so it is the limit that is reached, and both ledgers have the same.
    have hlimit : l.config.nodeLimit.any (· ≤ l.size) = true := by
      have hnot : ¬ ∀ limit ∈ l.config.nodeLimit, l.size < limit :=
        fun hall => hroom ⟨hall, by omega⟩
      cases hnode : l.config.nodeLimit with
      | none => simp [hnode] at hnot
      | some limit => simpa [hnode] using hnot
    simp only [allocate, config_shift, size_shift, hlimit, if_true]
    rfl

end

theorem releaseAll_shift {k : Nat} {l : Ledger} (hmax : l.nextId + k ≤ maxId) :
    (l.shift k).releaseAll = l.releaseAll.shift k := by
  unfold nextId at hmax
  have hfirst : min (l.firstId + k + l.size) maxId = min (l.firstId + l.size) maxId + k := by omega
  simp only [releaseAll, size_shift, firstId_shift, hfirst]
  simp [shift]

/-- A released ledger is a new one, shifted by the number of ids that it has granted. -/
theorem releaseAll_eq_shift {k : Nat} {l : Ledger} (hnext : l.nextId = 1 + k)
    (hmax : l.nextId ≤ maxId) : l.releaseAll = shift k { config := l.config } := by
  rw [releaseAll, ← nextId, Nat.min_eq_left hmax, hnext]
  simp [shift]

end Ledger

end VerilogTree
