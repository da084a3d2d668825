import VerilogTree.Proofs.Builder.Release

/-!
# The last id

A release goes on counting where the ledger stopped, but it does not count past the last id of all.
A builder that makes a name and releases it, again and again, takes one id after the other until it
comes to the last one, and from then on that one id every time.
-/

namespace VerilogTree.Builder

/-- The call that makes a name. A name has no parts. -/
def nameCall : Call := .construct (.expression (.identifier "a"))

def nameBody : Body := .expression (.identifier "a")

/-- Makes a number of names, each of which is released before the next one is made. -/
def namesInTurn : Nat → List Call
  | 0 => []
  | n + 1 => nameCall :: .releaseAll :: namesInTurn n

theorem arguments_namesInTurn {n : Nat} {c : Call} (h : c ∈ namesInTurn n) : c.arguments = [] := by
  induction n with
  | zero => cases h
  | succ n ih =>
      rcases List.mem_cons.mp h with rfl | h
      · rfl
      · rcases List.mem_cons.mp h with rfl | h
        · rfl
        · exact ih h

/-- There is no limit and nothing is live. The next node gets the given id and position. -/
structure Idle (b : Builder) (id slot : Nat) : Prop where
  noLimit : b.ledger.config.nodeLimit = none
  size_eq : b.ledger.size = 0
  firstId_eq : b.ledger.firstId = id
  slot_eq : b.store.size = slot

theorem idle_new : Idle {} 1 0 := ⟨rfl, rfl, rfl, rfl⟩

namespace Idle

variable {b : Builder} {id slot : Nat}

theorem nextId (h : b.Idle id slot) : b.ledger.nextId = id := by
  rw [Ledger.nextId, h.size_eq, h.firstId_eq, Nat.add_zero]

theorem hasRoom (h : b.Idle id slot) (hmax : id ≤ Ledger.maxId) : b.ledger.hasRoom :=
  ⟨by simp [h.noLimit], Nat.le_trans (Nat.le_of_eq h.nextId) hmax⟩

theorem newRef (h : b.Idle id slot) (hmax : id ≤ Ledger.maxId) (body : Body) :
    b.newRef body = ⟨⟨body.kind, slot⟩, id⟩ := by
  rw [Builder.newRef, newId_of_hasRoom (h.hasRoom hmax), h.nextId, h.slot_eq]

/-- A construction with parts of no released tree gets the next id. -/
theorem call_construct (h : b.Idle id slot) (hmax : id ≤ Ledger.maxId) {p : Production}
    {body : Body} (hbody : p.body b.store = .ok body)
    (hlinks : ∀ c ∈ b.store.idsOf body.links, b.ledger.isReleased c = false) :
    b.call (.construct p) = (b.constructed body, .ok (some ⟨⟨body.kind, slot⟩, id⟩)) := by
  rw [call, construct_of_live hbody hlinks, h.newRef hmax]
  rfl

theorem call_name (h : b.Idle id slot) (hmax : id ≤ Ledger.maxId) :
    b.call nameCall = (b.constructed nameBody, .ok (some ⟨⟨.identifier, slot⟩, id⟩)) :=
  h.call_construct hmax rfl fun _ hc => (List.not_mem_nil hc).elim

theorem store_name (h : b.Idle id slot) (hmax : id ≤ Ledger.maxId) :
    (b.call nameCall).1.store = b.store.add ⟨id, nameBody⟩ := by
  rw [h.call_name hmax]
  change b.store.add ⟨b.newId, nameBody⟩ = _
  rw [newId_of_hasRoom (h.hasRoom hmax), h.nextId]

theorem idAt_name (h : b.Idle id slot) (hmax : id ≤ Ledger.maxId) :
    (b.call nameCall).1.store.idAt slot = id := by
  rw [h.store_name hmax, Store.idAt, Store.node?_add, if_pos h.slot_eq.symm]
  rfl

/-- A name is made and released. The next id goes up by one, unless it is the last. -/
theorem round (h : b.Idle id slot) (hmax : id ≤ Ledger.maxId) :
    ((b.call nameCall).1.call .releaseAll).1.Idle (min (id + 1) Ledger.maxId) (slot + 1) where
  noLimit := by
    have hgrows := b.constructed_grows nameBody
    rw [h.call_name hmax]
    exact hgrows.config ▸ h.noLimit
  size_eq := rfl
  firstId_eq := by
    have hgrows := b.constructed_grows nameBody
    have hsize : (b.constructed nameBody).ledger.size = 1 := by
      rw [constructed_size, granted_of_hasRoom (h.hasRoom hmax), Ledger.size_grown, h.size_eq]
    rw [h.call_name hmax]
    change min ((b.constructed nameBody).ledger.firstId + _) _ = _
    rw [hsize, hgrows.firstId, h.firstId_eq]
  slot_eq := by
    change (b.call nameCall).1.store.size = slot + 1
    rw [h.store_name hmax, Store.size_add, h.slot_eq]

theorem run_namesInTurn (n : Nat) (h : b.Idle id slot) (hmax : id ≤ Ledger.maxId) :
    (b.run (namesInTurn n)).1.Idle (min (id + n) Ledger.maxId) (slot + n) := by
  induction n generalizing b id slot with
  | zero => simpa [namesInTurn, run, Nat.min_eq_left hmax] using h
  | succ n ih =>
      have hrest := ih (h.round hmax) (Nat.min_le_right _ _)
      have hid : min (min (id + 1) Ledger.maxId + n) Ledger.maxId =
          min (id + (n + 1)) Ledger.maxId := by
        omega
      rw [hid, Nat.add_right_comm] at hrest
      exact hrest

/-- At the last id, two names that are made in turn are the same node at two positions. -/
theorem node?_lastId (h : b.Idle Ledger.maxId slot) :
    (b.run [nameCall, .releaseAll, nameCall]).1.store.node? slot =
        some ⟨Ledger.maxId, nameBody⟩ ∧
      (b.run [nameCall, .releaseAll, nameCall]).1.store.node? (slot + 1) =
        some ⟨Ledger.maxId, nameBody⟩ := by
  have hle := Nat.le_refl Ledger.maxId
  have hnext : ((b.call nameCall).1.call .releaseAll).1.Idle Ledger.maxId (slot + 1) := h.round hle
  have hrun : (b.run [nameCall, .releaseAll, nameCall]).1.store =
      (b.store.add ⟨Ledger.maxId, nameBody⟩).add ⟨Ledger.maxId, nameBody⟩ := by
    rw [← h.store_name hle]
    exact hnext.store_name hle
  rw [hrun]
  constructor
  · rw [Store.node?_add, Store.size_add, h.slot_eq, if_neg (Nat.ne_of_lt (Nat.lt_succ_self slot)),
      Store.node?_add, if_pos h.slot_eq.symm]
  · rw [Store.node?_add, Store.size_add, h.slot_eq, if_pos rfl]

end Idle

/-- After so many names only the last id is left. -/
theorem idle_lastId : (({} : Builder).run (namesInTurn (Ledger.maxId - 1))).1.Idle
    Ledger.maxId (Ledger.maxId - 1) := by
  simpa [Ledger.maxId] using idle_new.run_namesInTurn (Ledger.maxId - 1) (by decide)

end VerilogTree.Builder
