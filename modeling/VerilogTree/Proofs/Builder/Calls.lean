import VerilogTree.Builder.Run
import VerilogTree.Proofs.Ledger.Links

/-!
# What a call can do

A construction ends in one of three ways: its parts do not fit together, a part of a released tree
is met among the links, or the node is made. An extension ends in one of three ways as well. Later
proofs go through these cases and do not open the calls again.
-/

namespace VerilogTree

/-! ## Look-ups in a store -/

namespace Store

@[simp] theorem size_add (s : Store) (node : Node) : (s.add node).size = s.size + 1 := by
  simp [add, size]

@[simp] theorem size_modify (s : Store) (slot : Nat) (f : Body → Body) :
    (s.modify slot f).size = s.size := by
  simp [modify, size]

theorem node?_add (s : Store) (node : Node) (slot : Nat) :
    (s.add node).node? slot = if slot = s.size then some node else s.node? slot := by
  by_cases h : slot = s.nodes.size <;> simp [add, node?, size, Array.getElem?_push, h]

theorem node?_modify (s : Store) (slot x : Nat) (f : Body → Body) :
    (s.modify slot f).node? x =
      if x = slot then (s.node? x).map fun node => { node with body := f node.body }
      else s.node? x := by
  simp [modify, node?, Array.getElem?_modify, eq_comm]

theorem body?_add (s : Store) (node : Node) (slot : Nat) :
    (s.add node).body? slot = if slot = s.size then some node.body else s.body? slot := by
  rw [body?, node?_add]
  split <;> rfl

theorem body?_modify (s : Store) (slot x : Nat) (f : Body → Body) :
    (s.modify slot f).body? x = if x = slot then (s.body? x).map f else s.body? x := by
  rw [body?, node?_modify]
  split
  · rw [body?, Option.map_map, Option.map_map]
    rfl
  · rfl

theorem node?_eq_none_of_size_le {s : Store} {slot : Nat} (h : s.size ≤ slot) :
    s.node? slot = none := by
  simpa [node?, size] using h

theorem lt_size_of_node? {s : Store} {slot : Nat} {node : Node} (h : s.node? slot = some node) :
    slot < s.size := by
  refine Nat.lt_of_not_le fun hle => ?_
  rw [node?_eq_none_of_size_le hle] at h
  cases h

theorem idAt_add_of_lt {s : Store} {slot : Nat} (h : slot < s.size) (node : Node) :
    (s.add node).idAt slot = s.idAt slot := by
  rw [idAt, node?_add, if_neg (Nat.ne_of_lt h), idAt]

@[simp] theorem idAt_modify (s : Store) (slot x : Nat) (f : Body → Body) :
    (s.modify slot f).idAt x = s.idAt x := by
  simp only [idAt, node?_modify]
  split
  · cases s.node? x <;> rfl
  · rfl

end Store

namespace Builder

/-! ## Taking an id -/

/-- The id that the next node gets. -/
def newId (b : Builder) : Nat := b.allocate.1

/-- The builder with that id taken, or with the failure noted. -/
def granted (b : Builder) : Builder := b.allocate.2

theorem newId_of_hasRoom {b : Builder} (h : b.ledger.hasRoom) : b.newId = b.ledger.nextId := by
  simp [newId, allocate, Ledger.allocate_of_hasRoom h]

theorem granted_of_hasRoom {b : Builder} (h : b.ledger.hasRoom) :
    b.granted = { b with ledger := b.ledger.grown } := by
  simp [granted, allocate, Ledger.allocate_of_hasRoom h]

theorem newId_of_not_hasRoom {b : Builder} (h : ¬ b.ledger.hasRoom) : b.newId = 0 := by
  obtain ⟨failure, hfailure⟩ := Ledger.allocate_of_not_hasRoom h
  simp [newId, allocate, hfailure]

theorem granted_ledger_of_not_hasRoom {b : Builder} (h : ¬ b.ledger.hasRoom) :
    b.granted.ledger = b.ledger := by
  obtain ⟨failure, hfailure⟩ := Ledger.allocate_of_not_hasRoom h
  simp [granted, allocate, hfailure]

@[simp] theorem granted_store (b : Builder) : b.granted.store = b.store := by
  unfold granted allocate
  split <;> rfl

theorem granted_wellFormed {b : Builder} (h : b.ledger.WellFormed) :
    b.granted.ledger.WellFormed := by
  by_cases hroom : b.ledger.hasRoom
  · rw [granted_of_hasRoom hroom]
    exact h.grown
  · rw [granted_ledger_of_not_hasRoom hroom]
    exact h

@[simp] theorem granted_node? (b : Builder) (id : Nat) :
    b.granted.ledger.node? id = b.ledger.node? id := by
  by_cases hroom : b.ledger.hasRoom
  · simp [granted_of_hasRoom hroom]
  · rw [granted_ledger_of_not_hasRoom hroom]

@[simp] theorem granted_parent? (b : Builder) (id : Nat) :
    b.granted.ledger.parent? id = b.ledger.parent? id := by
  by_cases hroom : b.ledger.hasRoom
  · simp [granted_of_hasRoom hroom]
  · rw [granted_ledger_of_not_hasRoom hroom]

@[simp] theorem granted_childIds (b : Builder) (id : Nat) :
    b.granted.ledger.childIds id = b.ledger.childIds id := by
  by_cases hroom : b.ledger.hasRoom
  · simp [granted_of_hasRoom hroom]
  · rw [granted_ledger_of_not_hasRoom hroom]

@[simp] theorem granted_isReleased (b : Builder) (id : Nat) :
    b.granted.ledger.isReleased id = b.ledger.isReleased id := by
  by_cases hroom : b.ledger.hasRoom
  · simp [granted_of_hasRoom hroom, Ledger.isReleased]
  · rw [granted_ledger_of_not_hasRoom hroom]

theorem granted_isLive {b : Builder} {id : Nat} (h : b.ledger.isLive id = true) :
    b.granted.ledger.isLive id = true := by
  by_cases hroom : b.ledger.hasRoom
  · rw [Ledger.isLive_iff] at h ⊢
    rw [granted_of_hasRoom hroom, Ledger.firstId_grown, Ledger.size_grown]
    omega
  · rwa [granted_ledger_of_not_hasRoom hroom]

theorem hasRoom_of_newId {b : Builder} (h : b.newId ≠ 0) : b.ledger.hasRoom := by
  by_cases hroom : b.ledger.hasRoom
  · exact hroom
  · exact absurd (newId_of_not_hasRoom hroom) h

/-- An id that is taken becomes live. -/
theorem newId_isLive {b : Builder} (h : b.newId ≠ 0) :
    b.granted.ledger.isLive b.newId = true := by
  have hroom := hasRoom_of_newId h
  rw [granted_of_hasRoom hroom, newId_of_hasRoom hroom, Ledger.isLive_iff, Ledger.firstId_grown,
    Ledger.size_grown, Ledger.nextId]
  omega

/-- Nothing was known of an id before it is taken. -/
theorem entry?_newId {b : Builder} (h : b.newId ≠ 0) : b.ledger.entry? b.newId = none := by
  rw [newId_of_hasRoom (hasRoom_of_newId h), Ledger.entry?_nextId]

/-! ## Constructions -/

/-- The ledger when the links of a new node have been made. -/
def linkedLedger (b : Builder) (body : Body) : Ledger :=
  (b.granted.ledger.linkAll b.newId (b.store.idsOf body.links)).1

/-- The reference to the next node. -/
def newRef (b : Builder) (body : Body) : NodeRef := ⟨⟨body.kind, b.store.size⟩, b.newId⟩

/-- The builder after a construction that succeeds. -/
def constructed (b : Builder) (body : Body) : Builder where
  store := b.store.add ⟨b.newId, body⟩
  ledger :=
    if b.newId = 0 then b.linkedLedger body else (b.linkedLedger body).withNode (b.newRef body)
  failures := b.granted.failures

theorem linkedLedger_linksOnly (b : Builder) (body : Body) :
    Ledger.LinksOnly b.granted.ledger (b.linkedLedger body) :=
  Ledger.linkAll_linksOnly _ _ _

theorem place_eq (b : Builder) (body : Body) :
    { b.granted with ledger := b.linkedLedger body }.place b.newId body =
      (b.constructed body, .ok (b.newRef body)) := by
  by_cases hid : b.newId = 0
  · simp [place, hid, constructed, newRef]
  · have hframe := b.linkedLedger_linksOnly body
    have hfree : b.granted.ledger.node? b.newId = none := by
      rw [granted_node?, Ledger.node?, entry?_newId hid]
      rfl
    have hrecord : (b.linkedLedger body).record (b.newRef body) =
        .ok ((b.linkedLedger body).withNode (b.newRef body)) :=
      (Ledger.record_eq_ok_iff _ _ _).mpr
        ⟨hid, (hframe.isLive _).trans (newId_isLive hid), (hframe.node _).trans hfree, rfl⟩
    simp only [newRef] at hrecord
    simp [place, hid, hrecord, constructed, newRef]

theorem construct_of_error {b : Builder} {p : Production} {misuse : Misuse}
    (h : p.body b.store = .error misuse) : b.construct p = (b, .error misuse) := by
  rw [construct, h]

theorem construct_of_ok {b : Builder} {p : Production} {body : Body}
    (h : p.body b.store = .ok body) :
    b.construct p =
      match (b.granted.ledger.linkAll b.newId (b.store.idsOf body.links)).2 with
      | .error misuse => ({ b.granted with ledger := b.linkedLedger body }, .error misuse)
      | .ok () => (b.constructed body, .ok (b.newRef body)) := by
  rw [← place_eq, linkedLedger, construct, h]
  simp only [granted, newId]
  cases b.allocate.2.ledger.linkAll b.allocate.1 (b.store.idsOf body.links) with
  | mk ledger answer => cases answer <;> rfl

/-- Parts of no released tree are not refused. -/
theorem construct_of_live {b : Builder} {p : Production} {body : Body}
    (hbody : p.body b.store = .ok body)
    (hlinks : ∀ c ∈ b.store.idsOf body.links, b.ledger.isReleased c = false) :
    b.construct p = (b.constructed body, .ok (b.newRef body)) := by
  have hok : (b.granted.ledger.linkAll b.newId (b.store.idsOf body.links)).2 = .ok () :=
    Ledger.linkAll_eq_ok (Ledger.isReleased_eq_false newId_isLive) (by simpa using hlinks)
  rw [construct_of_ok hbody, hok]

/-- The three ways in which a construction ends. -/
theorem construct_cases (b : Builder) (p : Production) :
    (∃ misuse, p.body b.store = .error misuse ∧ b.construct p = (b, .error misuse)) ∨
    (∃ body misuse, p.body b.store = .ok body ∧
      (b.granted.ledger.linkAll b.newId (b.store.idsOf body.links)).2 = .error misuse ∧
      b.construct p = ({ b.granted with ledger := b.linkedLedger body }, .error misuse)) ∨
    (∃ body, p.body b.store = .ok body ∧
      (b.granted.ledger.linkAll b.newId (b.store.idsOf body.links)).2 = .ok () ∧
      b.construct p = (b.constructed body, .ok (b.newRef body))) := by
  cases hbody : p.body b.store with
  | error misuse => exact .inl ⟨misuse, rfl, construct_of_error hbody⟩
  | ok body =>
      have hconstruct := construct_of_ok hbody
      cases hlink : (b.granted.ledger.linkAll b.newId (b.store.idsOf body.links)).2 with
      | error misuse =>
          rw [hlink] at hconstruct
          exact .inr (.inl ⟨body, misuse, rfl, hlink, hconstruct⟩)
      | ok done =>
          rw [hlink] at hconstruct
          exact .inr (.inr ⟨body, rfl, hlink, hconstruct⟩)

theorem linkedLedger_wellFormed {b : Builder} (h : b.ledger.WellFormed) (body : Body) :
    (b.linkedLedger body).WellFormed :=
  (granted_wellFormed h).linkAll _ _

theorem constructed_wellFormed {b : Builder} (h : b.ledger.WellFormed) (body : Body) :
    (b.constructed body).ledger.WellFormed := by
  have hlinked := linkedLedger_wellFormed h body
  rw [constructed]
  split
  · exact hlinked
  · rename_i hid
    apply hlinked.withNode
    exact ((b.linkedLedger_linksOnly body).isLive _).trans (newId_isLive hid)

theorem constructed_node? (b : Builder) (body : Body) (id : Nat) :
    (b.constructed body).ledger.node? id =
      if id = b.newId ∧ b.newId ≠ 0 then some (b.newRef body) else b.ledger.node? id := by
  have hframe := b.linkedLedger_linksOnly body
  by_cases hid : b.newId = 0
  · simp [constructed, hid, hframe.node]
  · have hlive : (b.linkedLedger body).isLive (b.newRef body).id = true :=
      (hframe.isLive _).trans (newId_isLive hid)
    simp only [constructed, hid, if_false, Ledger.node?_withNode hlive, hframe.node]
    simp [newRef, hid]

/-- What is recorded stays so: its id is not one that can still be taken. -/
theorem constructed_node?_of_some {b : Builder} {id : Nat} {node : NodeRef}
    (h : b.ledger.node? id = some node) (body : Body) :
    (b.constructed body).ledger.node? id = some node := by
  rw [constructed_node?, if_neg, h]
  rintro ⟨rfl, hnew⟩
  rw [Ledger.node?, entry?_newId hnew] at h
  cases h

theorem constructed_parent? (b : Builder) (body : Body) (id : Nat) :
    (b.constructed body).ledger.parent? id = (b.linkedLedger body).parent? id := by
  simp only [constructed]
  split <;> simp

theorem constructed_size (b : Builder) (body : Body) :
    (b.constructed body).ledger.size = b.granted.ledger.size := by
  simp only [constructed]
  split
  · exact (b.linkedLedger_linksOnly body).size
  · rw [Ledger.size_withNode]
    exact (b.linkedLedger_linksOnly body).size

/-! ## Extensions -/

/-- The ledger when the additions of an extension have been linked. -/
def extendedLedger (b : Builder) (e : Extension) : Ledger :=
  (b.ledger.linkAll (b.store.idAt e.target.slot) (b.store.idsOf e.links)).1

theorem extendedLedger_linksOnly (b : Builder) (e : Extension) :
    Ledger.LinksOnly b.ledger (b.extendedLedger e) :=
  Ledger.linkAll_linksOnly _ _ _

theorem extendedLedger_wellFormed {b : Builder} (h : b.ledger.WellFormed) (e : Extension) :
    (b.extendedLedger e).WellFormed :=
  h.linkAll _ _

/-- The builder after an extension that succeeds. -/
def extended (b : Builder) (e : Extension) : Builder :=
  { b with ledger := b.extendedLedger e, store := b.store.modify e.target.slot e.apply }

theorem extend_of_released {b : Builder} {e : Extension}
    (h : b.ledger.isReleased (b.store.idAt e.target.slot) = true) :
    b.extend e = (b, .error (.releasedTarget e.growth (b.store.idAt e.target.slot))) := by
  rw [extend, if_pos h]

theorem extend_of_not_released {b : Builder} {e : Extension}
    (h : b.ledger.isReleased (b.store.idAt e.target.slot) = false) :
    b.extend e =
      match (b.ledger.linkAll (b.store.idAt e.target.slot) (b.store.idsOf e.links)).2 with
      | .error misuse => ({ b with ledger := b.extendedLedger e }, .error misuse)
      | .ok () => (b.extended e, .ok ()) := by
  rw [extend, if_neg (by simp [h])]
  simp only [extended, extendedLedger]
  cases b.ledger.linkAll (b.store.idAt e.target.slot) (b.store.idsOf e.links) with
  | mk ledger answer => cases answer <;> rfl

theorem extend_of_live {b : Builder} {e : Extension}
    (htarget : b.ledger.isReleased (b.store.idAt e.target.slot) = false)
    (hlinks : ∀ c ∈ b.store.idsOf e.links, b.ledger.isReleased c = false) :
    b.extend e = (b.extended e, .ok ()) := by
  rw [extend_of_not_released htarget, Ledger.linkAll_eq_ok htarget hlinks]

/-- The three ways in which an extension ends. -/
theorem extend_cases (b : Builder) (e : Extension) :
    (b.ledger.isReleased (b.store.idAt e.target.slot) = true ∧
      b.extend e = (b, .error (.releasedTarget e.growth (b.store.idAt e.target.slot)))) ∨
    (∃ misuse, b.ledger.isReleased (b.store.idAt e.target.slot) = false ∧
      (b.ledger.linkAll (b.store.idAt e.target.slot) (b.store.idsOf e.links)).2 = .error misuse ∧
      b.extend e = ({ b with ledger := b.extendedLedger e }, .error misuse)) ∨
    (b.ledger.isReleased (b.store.idAt e.target.slot) = false ∧
      (b.ledger.linkAll (b.store.idAt e.target.slot) (b.store.idsOf e.links)).2 = .ok () ∧
      b.extend e = (b.extended e, .ok ())) := by
  cases hreleased : b.ledger.isReleased (b.store.idAt e.target.slot) with
  | true => exact .inl ⟨rfl, extend_of_released hreleased⟩
  | false =>
      have hextend := extend_of_not_released hreleased
      cases hlink : (b.ledger.linkAll (b.store.idAt e.target.slot) (b.store.idsOf e.links)).2 with
      | error misuse =>
          rw [hlink] at hextend
          exact .inr (.inl ⟨misuse, rfl, rfl, hextend⟩)
      | ok done =>
          rw [hlink] at hextend
          exact .inr (.inr ⟨rfl, rfl, hextend⟩)

/-! ## Runs -/

theorem run_cons (b : Builder) (c : Call) (rest : List Call) :
    b.run (c :: rest) =
      (((b.call c).1.run rest).1, (b.call c).2 :: ((b.call c).1.run rest).2) :=
  rfl

theorem run_append (b : Builder) (calls more : List Call) :
    (b.run (calls ++ more)).1 = ((b.run calls).1.run more).1 := by
  induction calls generalizing b with
  | nil => rfl
  | cons c rest ih => exact ih (b.call c).1

theorem call_wellFormed {b : Builder} (h : b.ledger.WellFormed) (c : Call) :
    (b.call c).1.ledger.WellFormed := by
  cases c with
  | construct p =>
      obtain ⟨_, _, heq⟩ | ⟨body, _, _, _, heq⟩ | ⟨body, _, _, heq⟩ := b.construct_cases p
      · simpa [call, heq] using h
      · simpa [call, heq] using linkedLedger_wellFormed h body
      · simpa [call, heq] using constructed_wellFormed h body
  | extend e =>
      obtain ⟨_, heq⟩ | ⟨_, _, _, heq⟩ | ⟨_, _, heq⟩ := b.extend_cases e
      · simpa [call, heq] using h
      · simpa [call, heq] using extendedLedger_wellFormed h e
      · simpa [call, heq, extended] using extendedLedger_wellFormed h e
  | releaseAll => exact h.releaseAll

end Builder

end VerilogTree
