import VerilogTree.Proofs.Builder.History
import VerilogTree.Proofs.Builder.Workshop
import VerilogTree.Proofs.Ledger.Siblings

/-!
# What a construction links

The fields of a new node and the links made for it are written down apart from each other, kind by
kind. In every state of a builder and for every production a new node becomes the parent of exactly
the nodes that its fields hold and that the ledger knows, in the order of their links, and no other
link is touched.
-/

namespace VerilogTree

/-- The handles of the node at a position, in the order in which they are linked. -/
def Store.linksAt (s : Store) (slot : Nat) : List AnyHandle := (s.body? slot).elim [] Body.links

/-- The ids of the nodes that the fields of the node at a position hold. -/
def Store.storedIds (s : Store) (slot : Nat) : List Nat := s.idsOf (s.storedAt slot)

/-! ## The parent from the lists of children -/

theorem Ledger.WellFormed.parent?_congr {l l' : Ledger} (h : l.WellFormed) (h' : l'.WellFormed)
    {c : Nat} (hc : ∀ p, c ∈ l'.childIds p ↔ c ∈ l.childIds p) : l'.parent? c = l.parent? c := by
  apply Option.ext
  intro p
  rw [← h'.mem_childIds, ← h.mem_childIds]
  exact hc p

namespace Builder

variable {b : Builder} {body : Body}

/-! ## The ledger with the new id -/

theorem newId_eq_zero_iff (h : b.ledger.WellFormed) : b.newId = 0 ↔ ¬ b.ledger.hasRoom := by
  constructor
  · intro hzero hroom
    rw [newId_of_hasRoom hroom, Ledger.nextId] at hzero
    have := h.firstId_pos
    omega
  · exact newId_of_not_hasRoom

theorem isLive_newId (h : b.ledger.WellFormed) : b.ledger.isLive b.newId = false := by
  by_cases hnew : b.newId = 0
  · rw [hnew]
    exact h.isLive_zero
  · rw [Ledger.isLive, entry?_newId hnew]
    rfl

/-- Under a new id exactly the ids that were live before can be linked. -/
theorem effective_newId (h : b.ledger.WellFormed) (hnew : b.newId ≠ 0) (c : Nat) :
    b.granted.ledger.effective c b.newId = b.ledger.isLive c := by
  have hroom := hasRoom_of_newId hnew
  rw [Bool.eq_iff_iff, Ledger.effective_iff]
  constructor
  · rintro ⟨hne, hlive, -⟩
    rw [newId_of_hasRoom hroom, Ledger.nextId] at hne
    rw [granted_of_hasRoom hroom, Ledger.isLive_iff, Ledger.firstId_grown,
      Ledger.size_grown] at hlive
    rw [Ledger.isLive_iff]
    omega
  · intro hlive
    refine ⟨?_, granted_isLive hlive, newId_isLive hnew⟩
    rintro rfl
    rw [isLive_newId h] at hlive
    cases hlive

/-- The ids that are live among those of the links, in their order. -/
def liveLinks (b : Builder) (body : Body) : List Nat :=
  (b.store.idsOf body.links).filter b.ledger.isLive

theorem linkedLedger_childIds (h : b.ledger.WellFormed) (hnew : b.newId ≠ 0)
    (hok : (b.granted.ledger.linkAll b.newId (b.store.idsOf body.links)).2 = .ok ()) (p : Nat) :
    (b.linkedLedger body).childIds p =
      (b.ledger.childIds p).filter (fun c => c ∉ b.liveLinks body) ++
        if p = b.newId then (b.liveLinks body).dedup else [] := by
  have hmoved : (b.store.idsOf body.links).filter (fun c => b.granted.ledger.effective c b.newId) =
      b.liveLinks body :=
    List.filter_congr fun c _ => effective_newId h hnew c
  rw [linkedLedger, (granted_wellFormed h).childIds_linkAll hok, hmoved, granted_childIds]

/-- Without an id nothing can be linked. -/
theorem linkedLedger_of_newId_eq_zero (h : b.ledger.WellFormed) (hnew : b.newId = 0)
    (body : Body) : b.linkedLedger body = b.ledger := by
  have hledger := granted_ledger_of_not_hasRoom ((newId_eq_zero_iff h).mp hnew)
  rw [linkedLedger, hledger, hnew, Ledger.linkAll_of_not_isLive h.isLive_zero]

/-! ## The builder with the new node -/

@[simp] theorem constructed_childIds (b : Builder) (body : Body) (id : Nat) :
    (b.constructed body).ledger.childIds id = (b.linkedLedger body).childIds id := by
  simp only [constructed]
  split <;> simp

theorem constructed_newNode (b : Builder) (body : Body) :
    (b.constructed body).store.node? (b.newRef body).slot = some ⟨b.newId, body⟩ := by
  simp [constructed, newRef, Store.node?_add]

/-- A handle that is live keeps its id, and no other handle gets an id that was live. -/
theorem constructed_idsOf (h : b.ledger.WellFormed) (body : Body) (handles : List AnyHandle) :
    ((b.constructed body).store.idsOf handles).filter b.ledger.isLive =
      (b.store.idsOf handles).filter b.ledger.isLive := by
  have hid : ∀ x : AnyHandle, (b.constructed body).store.idAt x.slot = b.store.idAt x.slot ∨
      (b.constructed body).store.idAt x.slot = b.newId ∧ b.store.idAt x.slot = 0 := by
    intro x
    simp only [constructed, Store.idAt, Store.node?_add]
    split
    · rename_i hslot
      rw [hslot, Store.node?_eq_none_of_size_le (Nat.le_refl _)]
      exact .inr ⟨rfl, rfl⟩
    · exact .inl rfl
  induction handles with
  | nil => rfl
  | cons x rest ih =>
      simp only [Store.idsOf, List.map_cons] at ih ⊢
      rcases hid x with heq | ⟨hnew, hzero⟩
      · rw [heq, List.filter_cons, List.filter_cons, ih]
      · rw [hnew, hzero, List.filter_cons_of_neg (by simp [isLive_newId h]),
          List.filter_cons_of_neg (by simp [h.isLive_zero]), ih]

theorem mem_liveLinks_iff (h : b.ledger.WellFormed) (hbody : body.DefaultListed) (c : Nat) :
    c ∈ b.liveLinks body ↔
      c ∈ (b.constructed body).store.idsOf body.stored ∧ b.ledger.isLive c = true := by
  have hsame : ∀ s : Store, c ∈ s.idsOf body.links ↔ c ∈ s.idsOf body.stored := by
    intro s
    simp only [Store.idsOf, List.mem_map, Body.mem_stored_iff hbody]
  rw [liveLinks, ← constructed_idsOf h body, List.mem_filter, hsame]

end Builder

/-! ## The contract of a construction -/

/-- What a construction has done to the builder `b` when its new node `x` has an id. -/
structure LinkedAnew (b after : Builder) (p : Production) (x : NodeRef) : Prop where
  made : ∃ body, p.body b.store = .ok body ∧ after.store.node? x.slot = some ⟨x.id, body⟩
  node_eq : after.ledger.node? x.id = some x
  /-- Its children are the nodes in its fields that were live before. -/
  parent_eq_iff : ∀ c, after.ledger.parent? c = some x.id ↔
    c ∈ after.store.storedIds x.slot ∧ b.ledger.isLive c = true
  /-- They stand in the order of the links, a repeated one at its last place. -/
  children_eq : after.ledger.children x.id =
    ((after.store.idsOf (after.store.linksAt x.slot)).filter b.ledger.isLive).dedup.filterMap
      after.ledger.node?
  children_nodup : ((after.ledger.children x.id).map fun node => node.id).Nodup
  parent_eq_none : after.ledger.parent? x.id = none
  parent_of_other : ∀ c, c ∉ after.store.storedIds x.slot →
    after.ledger.parent? c = b.ledger.parent? c
  /-- Other parents keep those children that the new node does not hold, in their order. -/
  childIds_of_other : ∀ q, q ≠ x.id → after.ledger.childIds q =
    (b.ledger.childIds q).filter fun c => c ∉ after.store.storedIds x.slot

namespace Builder

variable {b : Builder} {body : Body}

/-- An id that is not among the live links keeps its parent. -/
theorem constructed_parent?_of_notMem (h : b.ledger.WellFormed) (hnew : b.newId ≠ 0)
    (hok : (b.granted.ledger.linkAll b.newId (b.store.idsOf body.links)).2 = .ok ()) {c : Nat}
    (hc : c ∉ b.liveLinks body) :
    (b.constructed body).ledger.parent? c = b.ledger.parent? c := by
  apply h.parent?_congr (constructed_wellFormed h body)
  intro p
  rw [constructed_childIds, linkedLedger_childIds h hnew hok]
  by_cases hp : p = b.newId <;> simp [hp, hc]

theorem constructed_linkedAnew (h : b.ledger.WellFormed) {p : Production}
    (hbody : p.body b.store = .ok body)
    (hok : (b.granted.ledger.linkAll b.newId (b.store.idsOf body.links)).2 = .ok ())
    (hnew : b.newId ≠ 0) : LinkedAnew b (b.constructed body) p (b.newRef body) := by
  have hafter := constructed_wellFormed h body
  have hnode := b.constructed_newNode body
  have hstored : (b.constructed body).store.storedIds (b.newRef body).slot =
      (b.constructed body).store.idsOf body.stored := by
    simp [Store.storedIds, Store.storedAt, Store.body?, hnode]
  have hlinks : (b.constructed body).store.linksAt (b.newRef body).slot = body.links := by
    simp [Store.linksAt, Store.body?, hnode]
  have hmem : ∀ c, c ∈ b.liveLinks body ↔
      c ∈ (b.constructed body).store.storedIds (b.newRef body).slot ∧ b.ledger.isLive c = true := by
    rw [hstored]
    exact mem_liveLinks_iff h (Production.defaultListed_body hbody)
  -- The new id was not live before, so it has no parent and had no children.
  have hnotLive := isLive_newId h
  have hnone : b.ledger.childIds b.newId = [] := by
    rw [Ledger.childIds, entry?_newId hnew]
    rfl
  have hchildren : (b.constructed body).ledger.childIds b.newId = (b.liveLinks body).dedup := by
    rw [constructed_childIds, linkedLedger_childIds h hnew hok, hnone, if_pos rfl]
    rfl
  refine ⟨⟨body, hbody, hnode⟩, ?_, ?_, ?_, ?_, ?_, ?_, ?_⟩
  · rw [constructed_node?, if_pos ⟨rfl, hnew⟩]
  · intro c
    rw [← hafter.mem_childIds, ← hmem]
    change c ∈ (b.constructed body).ledger.childIds b.newId ↔ _
    rw [hchildren, List.mem_dedup]
  · rw [Ledger.children_eq_filterMap, hlinks, constructed_idsOf h]
    exact congrArg (List.filterMap _) hchildren
  · rw [Ledger.children_eq_filterMap, hafter.map_id_filterMap]
    exact (hafter.childIds_nodup _).filter _
  · change (b.constructed body).ledger.parent? b.newId = none
    rw [constructed_parent?_of_notMem h hnew hok, Ledger.parent?, entry?_newId hnew]
    · rfl
    · rw [hmem, hnotLive]
      simp
  · intro c hc
    exact constructed_parent?_of_notMem h hnew hok fun hlive => hc ((hmem c).mp hlive).1
  · intro q hq
    change q ≠ b.newId at hq
    rw [constructed_childIds, linkedLedger_childIds h hnew hok, if_neg hq, List.append_nil]
    apply List.filter_congr
    intro c hc
    have hlive := Ledger.isLive_of_parent? (h.mem_childIds.mp hc)
    simp [hmem, hlive]

end Builder

/-- Whatever was done before, by any number of builders: a construction that returns a node links
exactly what the node stores, and if the node has no id, it links nothing. -/
theorem construct_links (tasks : List Task) (i : Nat) (b : Builder)
    (hb : (Workshop.run {} tasks).builder? i = some b) (p : Production) (x : NodeRef)
    (hx : (b.construct p).2 = .ok x) :
    (x.id ≠ 0 → LinkedAnew b (b.construct p).1 p x) ∧
      (x.id = 0 → (b.construct p).1.ledger = b.ledger) := by
  have h := Workshop.builder_wellFormed hb
  obtain ⟨_, -, heq⟩ | ⟨_, _, -, -, heq⟩ | ⟨body, hbody, hok, heq⟩ := b.construct_cases p
  · rw [heq] at hx
    cases hx
  · rw [heq] at hx
    cases hx
  · rw [heq] at hx ⊢
    cases hx
    refine ⟨Builder.constructed_linkedAnew h hbody hok, ?_⟩
    intro hnew
    change b.newId = 0 at hnew
    rw [Builder.constructed, if_pos hnew, Builder.linkedLedger_of_newId_eq_zero h hnew]

/-- A module with a name, a port and nothing else, and a statement behind it. -/
def smallModule : List Task := [
  .newBuilder {},
  .call 0 (.construct (.expression (.identifier "m"))),
  .call 0 (.construct (.design (.portDeclaration .input .wire false false false none []))),
  .call 0 (.construct (.design (.moduleDeclaration none ⟨0⟩ [] [⟨1⟩] []))),
  .call 0 (.construct (.statement (.nullStatement none)))]

/-- A second module takes the name and the port of the first one. The port stands among its ports
and again as its last item, so it comes last among its children. -/
theorem construct_links_smallModule :
    let p : Production := .design
      (.moduleDeclaration none ⟨0⟩ [] [⟨1⟩] [.initial ⟨3⟩, .port ⟨1⟩])
    ∃ b, (Workshop.run {} smallModule).builder? 0 = some b ∧
      (b.construct p).2 = .ok ⟨⟨.moduleDeclaration, 4⟩, 5⟩ ∧
      b.ledger.childIds 3 = [1, 2] ∧ (b.construct p).1.ledger.childIds 3 = [] ∧
      (b.construct p).1.ledger.childIds 5 = [1, 4, 2] ∧
      LinkedAnew b (b.construct p).1 p ⟨⟨.moduleDeclaration, 4⟩, 5⟩ :=
  ⟨_, rfl, rfl, rfl, rfl, rfl, (construct_links smallModule 0 _ rfl _ _ rfl).1 (by decide)⟩

end VerilogTree
