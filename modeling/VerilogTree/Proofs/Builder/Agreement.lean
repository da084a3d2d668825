import VerilogTree.Proofs.Builder.History
import VerilogTree.Proofs.Builder.Ownership

/-!
# The ledger agrees with the tree

Links are kept in the ledger, apart from the fields of the nodes. In a run that is given handles
of its own current tree only, the two agree: the parent of a node is the recorded node, other than
itself, that took it in last, and a node that is recorded and holds it is not forgotten.
-/

namespace VerilogTree

/-- The id of the node, other than the handle itself and not without an id, that took a handle in
last. -/
def lastTakerId (s : Store) (y : AnyHandle) (intakes : List Intake) : Option Nat :=
  (intakes.find? fun i => y ∈ i.taken ∧ i.taker ≠ y ∧ s.idAt i.taker.slot ≠ 0).map
    fun i => s.idAt i.taker.slot

theorem lastTakerId_cons (s : Store) (y : AnyHandle) (i : Intake) (intakes : List Intake) :
    lastTakerId s y (i :: intakes) =
      if y ∈ i.taken ∧ i.taker ≠ y ∧ s.idAt i.taker.slot ≠ 0 then some (s.idAt i.taker.slot)
      else lastTakerId s y intakes := by
  unfold lastTakerId
  by_cases hi : y ∈ i.taken ∧ i.taker ≠ y ∧ s.idAt i.taker.slot ≠ 0
  · rw [if_pos hi, List.find?_cons_of_pos (by rw [decide_eq_true_eq]; exact hi)]
    rfl
  · rw [if_neg hi, List.find?_cons_of_neg (by rw [decide_eq_true_eq]; exact hi)]

theorem lastTakerId_congr {s s' : Store} {intakes : List Intake}
    (h : ∀ i ∈ intakes, s'.idAt i.taker.slot = s.idAt i.taker.slot) (y : AnyHandle) :
    lastTakerId s' y intakes = lastTakerId s y intakes := by
  induction intakes with
  | nil => rfl
  | cons i intakes ih =>
      rw [lastTakerId_cons, lastTakerId_cons, h i (by simp), ih fun j hj => h j (by simp [hj])]

theorem lastTakerId_eq_none {s : Store} {y : AnyHandle} {intakes : List Intake}
    (h : ∀ i ∈ intakes, y ∉ i.taken) : lastTakerId s y intakes = none := by
  induction intakes with
  | nil => rfl
  | cons i intakes ih =>
      rw [lastTakerId_cons, if_neg fun hi => h i (by simp) hi.1]
      exact ih fun j hj => h j (by simp [hj])

theorem exists_of_lastTakerId {s : Store} {y : AnyHandle} {intakes : List Intake} {id : Nat}
    (h : lastTakerId s y intakes = some id) :
    ∃ later x taken earlier, intakes = later ++ ⟨x, taken⟩ :: earlier ∧ y ∈ taken ∧ x ≠ y ∧
      s.idAt x.slot = id ∧ id ≠ 0 ∧
      ∀ i ∈ later, y ∈ i.taken → i.taker ≠ y → s.idAt i.taker.slot = 0 := by
  obtain ⟨i, hfind, rfl⟩ := Option.map_eq_some_iff.mp h
  obtain ⟨hi, later, earlier, hsplit, hlater⟩ := List.find?_eq_some_iff_append.mp hfind
  simp only [decide_eq_true_eq] at hi
  refine ⟨later, i.taker, i.taken, earlier, hsplit, hi.1, hi.2.1, rfl, hi.2.2, ?_⟩
  intro j hj hy hne
  simpa [hy, hne] using hlater j hj

theorem exists_lastTakerId {s : Store} {x y : AnyHandle} {intakes : List Intake}
    (h : TookIn intakes x y) (hne : x ≠ y) (hid : s.idAt x.slot ≠ 0) :
    ∃ id, lastTakerId s y intakes = some id := by
  obtain ⟨i, hi, rfl, hy⟩ := h
  have hfound : (intakes.find? fun i =>
      y ∈ i.taken ∧ i.taker ≠ y ∧ s.idAt i.taker.slot ≠ 0).isSome := by
    rw [List.find?_isSome]
    exact ⟨i, hi, by simp [hy, hne, hid]⟩
  obtain ⟨j, hj⟩ := Option.isSome_iff_exists.mp hfound
  exact ⟨_, by rw [lastTakerId, hj]; rfl⟩

/-! ## What a history says of the builder -/

/-- The builder is as the history of its current tree has it. -/
structure Tracked (b : Builder) (h : History) : Prop where
  wellFormed : b.ledger.WellFormed
  known : ∀ x ∈ h.current, ∃ node, b.store.node? x.slot = some node ∧ node.body.kind = x.kind ∧
    (node.id ≠ 0 → b.ledger.node? node.id = some ⟨x, node.id⟩)
  recorded : ∀ {id ref}, b.ledger.node? id = some ref →
    ref.toAnyHandle ∈ h.current ∧ b.store.idAt ref.slot = id
  taken : ∀ i ∈ h.intakes, i.taker ∈ h.current ∧ ∀ y ∈ i.taken, y ∈ h.current
  stored : ∀ x ∈ h.current, ∀ y, y ∈ b.store.storedAt x.slot ↔ TookIn h.intakes x y
  parent : ∀ y ∈ h.current, b.store.idAt y.slot ≠ 0 →
    b.ledger.parent? (b.store.idAt y.slot) = lastTakerId b.store y h.intakes

namespace Tracked

variable {b : Builder} {h : History}

theorem owns (t : Tracked b h) {x : AnyHandle} (hx : x ∈ h.current) : b.Owns x := t.known x hx

/-- Ledgers with at least the live ids of the builder link each handle of the current tree that has
an id, unless it is the parent or the parent has no id. -/
theorem parent?_linkAll (t : Tracked b h) {l : Ledger} {parent : Nat} {handles : List AnyHandle}
    (hpos : 0 < l.firstId)
    (hlive : ∀ {id}, b.ledger.isLive id = true → l.isLive id = true)
    (hparent : parent ≠ 0 → l.isLive parent = true)
    (hhandles : ∀ x ∈ handles, x ∈ h.current)
    {y : AnyHandle} (hy : y ∈ h.current) (hid : b.store.idAt y.slot ≠ 0) :
    (l.linkAll parent (b.store.idsOf handles)).1.parent? (b.store.idAt y.slot) =
      if y ∈ handles ∧ b.store.idAt y.slot ≠ parent ∧ parent ≠ 0 then some parent
      else l.parent? (b.store.idAt y.slot) := by
  have hzero : parent ≠ 0 ↔ l.isLive parent = true := by
    refine ⟨hparent, ?_⟩
    intro hp hzero
    have := (l.isLive_iff parent).mp hp
    omega
  have howned : ∀ x ∈ handles, b.Owns x := fun x hx => t.owns (hhandles x hx)
  simp only [Ledger.parent?_linkAll (Ledger.isReleased_eq_false hparent)
      (Builder.Owns.isReleased_idsOf howned hlive), (t.owns hy).mem_idsOf howned hid,
    Ledger.effective_iff, hzero, hlive ((t.owns hy).isLive_idAt hid), true_and]

/-! ## Steps -/

theorem constructed_parent?_of_mem (t : Tracked b h) {body : Body}
    (hlinks : ∀ x ∈ body.links, x ∈ h.current) {y : AnyHandle} (hy : y ∈ h.current)
    (hid : b.store.idAt y.slot ≠ 0) :
    (b.constructed body).ledger.parent? (b.store.idAt y.slot) =
      if y ∈ body.links ∧ b.newId ≠ 0 then some b.newId
      else b.ledger.parent? (b.store.idAt y.slot) := by
  -- The id of the new node was free, so no earlier handle has it.
  have hne : b.newId ≠ 0 → b.store.idAt y.slot ≠ b.newId := by
    intro hnew heq
    have hlive := (t.owns hy).isLive_idAt hid
    rw [heq, Ledger.isLive, Builder.entry?_newId hnew] at hlive
    cases hlive
  rw [Builder.constructed_parent?, Builder.linkedLedger,
    t.parent?_linkAll (Builder.granted_wellFormed t.wellFormed).firstId_pos Builder.granted_isLive
      Builder.newId_isLive hlinks hy hid, Builder.granted_parent?]
  by_cases hnew : b.newId = 0
  · simp [hnew]
  · simp [hnew, hne hnew]

theorem constructed_parent?_newId (t : Tracked b h) {body : Body}
    (hlinks : ∀ x ∈ body.links, x ∈ h.current) (hnew : b.newId ≠ 0) :
    (b.constructed body).ledger.parent? b.newId = none := by
  rw [Builder.constructed_parent?, Builder.linkedLedger,
    Ledger.parent?_linkAll (Ledger.isReleased_eq_false Builder.newId_isLive)
      (Builder.Owns.isReleased_idsOf (fun x hx => t.owns (hlinks x hx)) Builder.granted_isLive),
    Builder.granted_parent?, Ledger.parent?,
    Builder.entry?_newId hnew]
  simp [Ledger.effective]

/-- A handle to a new node is none of those returned before. -/
theorem newRef_ne (t : Tracked b h) (body : Body) {x : AnyHandle} (hx : x ∈ h.current) :
    (b.newRef body).toAnyHandle ≠ x := by
  rintro rfl
  exact Nat.lt_irrefl _ (t.owns hx).lt_size

theorem constructed_node?_of_mem (t : Tracked b h) (body : Body) {x : AnyHandle}
    (hx : x ∈ h.current) : (b.constructed body).store.node? x.slot = b.store.node? x.slot := by
  rw [Builder.constructed, Store.node?_add, if_neg (Nat.ne_of_lt (t.owns hx).lt_size)]

theorem constructed (t : Tracked b h) {body : Body} (hbody : body.DefaultListed)
    (hlinks : ∀ x ∈ body.links, x ∈ h.current) :
    Tracked (b.constructed body)
      { returned := (b.newRef body).toAnyHandle :: h.returned
        current := (b.newRef body).toAnyHandle :: h.current
        intakes := ⟨(b.newRef body).toAnyHandle, body.stored⟩ :: h.intakes } := by
  have hnode : (b.constructed body).store.node? (b.newRef body).slot = some ⟨b.newId, body⟩ := by
    simp [Builder.constructed, Builder.newRef, Store.node?_add]
  have hid : (b.constructed body).store.idAt (b.newRef body).slot = b.newId := by
    simp [Store.idAt, hnode]
  have hstored : ∀ y ∈ body.stored, y ∈ h.current :=
    fun y hy => hlinks y ((Body.mem_stored_iff hbody y).mp hy)
  refine ⟨Builder.constructed_wellFormed t.wellFormed body, ?_, ?_, ?_, ?_, ?_⟩
  · intro x hx
    rcases List.mem_cons.mp hx with rfl | hx
    · refine ⟨_, hnode, rfl, ?_⟩
      intro hnew
      rw [Builder.constructed_node?, if_pos ⟨rfl, hnew⟩]
      rfl
    · exact (t.owns hx).constructed body
  · intro id ref href
    rw [Builder.constructed_node?] at href
    split at href
    · rename_i hnew
      obtain rfl := Option.some.inj href
      exact ⟨by simp, hid.trans hnew.1.symm⟩
    · obtain ⟨hmem, hold⟩ := t.recorded href
      exact ⟨by simp [hmem], ((t.owns hmem).idAt_constructed body).trans hold⟩
  · intro i hi
    rcases List.mem_cons.mp hi with rfl | hi
    · exact ⟨by simp, fun y hy => by simp [hstored y hy]⟩
    · obtain ⟨htaker, htaken⟩ := t.taken i hi
      exact ⟨by simp [htaker], fun y hy => by simp [htaken y hy]⟩
  · intro x hx y
    rw [tookIn_cons]
    rcases List.mem_cons.mp hx with rfl | hx
    · have hnot : ¬ TookIn h.intakes (b.newRef body).toAnyHandle y := by
        rintro ⟨i, hi, htaker, -⟩
        exact t.newRef_ne body (t.taken i hi).1 htaker.symm
      simp [Store.storedAt, Store.body?, hnode, hnot]
    · have hsame : (b.constructed body).store.storedAt x.slot = b.store.storedAt x.slot := by
        rw [Store.storedAt, Store.body?, t.constructed_node?_of_mem body hx]
        rfl
      simpa [hsame, t.newRef_ne body hx] using t.stored x hx y
  · intro y hy hpos
    rw [lastTakerId_cons, hid,
      lastTakerId_congr fun i hi => (t.owns (t.taken i hi).1).idAt_constructed body]
    rcases List.mem_cons.mp hy with rfl | hy
    · have hnone : lastTakerId b.store (b.newRef body).toAnyHandle h.intakes = none :=
        lastTakerId_eq_none fun i hi hmem => t.newRef_ne body ((t.taken i hi).2 _ hmem) rfl
      rw [hid] at hpos ⊢
      simp [hnone, t.constructed_parent?_newId hlinks hpos]
    · rw [(t.owns hy).idAt_constructed body] at hpos ⊢
      rw [t.constructed_parent?_of_mem hlinks hy hpos, t.parent y hy hpos]
      simp [Body.mem_stored_iff hbody, t.newRef_ne body hy]

theorem extended (t : Tracked b h) {e : Extension} (htarget : e.target ∈ h.current)
    (hlinks : ∀ x ∈ e.links, x ∈ h.current) :
    Tracked (b.extended e) { h with intakes := ⟨e.target, e.links⟩ :: h.intakes } := by
  have hframe := b.extendedLedger_linksOnly e
  have hid : ∀ slot, (b.extended e).store.idAt slot = b.store.idAt slot :=
    fun slot => Store.idAt_modify ..
  refine ⟨Builder.extendedLedger_wellFormed t.wellFormed e, ?_, ?_, ?_, ?_, ?_⟩
  · intro x hx
    exact (t.owns hx).extended e
  · intro id ref href
    rw [hid]
    exact t.recorded ((hframe.node id).symm.trans href)
  · intro i hi
    rcases List.mem_cons.mp hi with rfl | hi
    · exact ⟨htarget, hlinks⟩
    · exact t.taken i hi
  · intro x hx y
    rw [tookIn_cons, ← t.stored x hx]
    obtain ⟨node, hnode, hkind, -⟩ := t.known x hx
    by_cases hslot : x.slot = e.target.slot
    · -- There is one handle to a position in the current tree.
      have hx : e.target = x := ((t.owns hx).eq_of_slot_eq (t.owns htarget) hslot).symm
      subst hx
      simp [Store.storedAt, Store.body?, Builder.extended, Store.node?_modify, hnode,
        Extension.mem_stored_apply hkind]
    · have hne : e.target ≠ x := fun heq => hslot (heq ▸ rfl)
      simp [Store.storedAt, Store.body?, Builder.extended, Store.node?_modify, hslot, hne]
  · intro y hy hpos
    rw [hid] at hpos ⊢
    have hne : b.store.idAt y.slot ≠ b.store.idAt e.target.slot ↔ e.target ≠ y := by
      refine not_congr ⟨?_, ?_⟩
      · exact fun heq => ((t.owns hy).eq_of_idAt_eq (t.owns htarget) hpos heq).symm
      · rintro rfl
        rfl
    have hparent := t.parent?_linkAll t.wellFormed.firstId_pos id (t.owns htarget).isLive_idAt
      hlinks hy hpos
    simp only [hne] at hparent
    rw [lastTakerId_cons, lastTakerId_congr fun i _ => hid i.taker.slot, hid,
      ← t.parent y hy hpos]
    exact hparent

theorem releaseAll (t : Tracked b h) : Tracked b.releaseAll { returned := h.returned } := by
  refine ⟨t.wellFormed.releaseAll, ?_, ?_, ?_, ?_, ?_⟩ <;> simp [Builder.releaseAll, Ledger.node?]

/-- Every call that is given handles of the current tree keeps the builder tracked. -/
theorem call (t : Tracked b h) {c : Call} (hc : c.UsesCurrent h) :
    Tracked (b.call c).1 (b.noted h c) := by
  rw [Builder.noted]
  cases c with
  | construct p =>
      cases hbody : p.body b.store with
      | error misuse =>
          have hcall : b.call (.construct p) = (b, .error misuse) := by
            rw [Builder.call, Builder.construct_of_error hbody]
            rfl
          rw [hcall]
          exact t
      | ok body =>
          have hcall : b.call (.construct p) =
              (b.constructed body, .ok (some (b.newRef body))) := by
            rw [Builder.call, Builder.construct_of_owned hbody fun x hx => t.owns (hc x hx)]
            rfl
          have hstored : (b.constructed body).store.storedAt (b.newRef body).slot =
              body.stored := by
            simp [Store.storedAt, Store.body?, Builder.constructed, Builder.newRef, Store.node?_add]
          rw [hcall, History.note, hstored]
          exact t.constructed (Production.defaultListed_body hbody)
            fun x hx => hc x (Production.links_subset_arguments hbody hx)
  | extend e =>
      have htarget : e.target ∈ h.current := hc _ (by simp [Call.arguments])
      have hlinks : ∀ x ∈ e.links, x ∈ h.current := fun x hx => hc x (by simp [Call.arguments, hx])
      have hcall : b.call (.extend e) = (b.extended e, .ok none) := by
        rw [Builder.call,
          Builder.extend_of_owned (t.owns htarget) fun x hx => t.owns (hlinks x hx)]
        rfl
      rw [hcall]
      exact t.extended htarget hlinks
  | releaseAll => exact t.releaseAll

theorem run (t : Tracked b h) {calls : List Call} (hcalls : b.Along Call.UsesCurrent h calls) :
    Tracked (b.run calls).1 (b.history h calls) := by
  induction calls generalizing b h with
  | nil => exact t
  | cons c rest ih => exact ih (t.call hcalls.1) hcalls.2

end Tracked

theorem tracked_new (store : Store) (config : LedgerConfig) :
    Tracked { store, ledger := { config } } {} := by
  refine ⟨Ledger.wellFormed_new config, ?_, ?_, ?_, ?_, ?_⟩ <;> simp [Ledger.node?]

/-! ## Agreement -/

/-- A node took a handle in last, if recorded nodes other than the handle itself are counted. -/
def TookInLast (history : History) (recorded : List NodeRef) (x y : AnyHandle) : Prop :=
  ∃ later taken earlier, history.intakes = later ++ ⟨x, taken⟩ :: earlier ∧ y ∈ taken ∧
    ∀ i ∈ later, y ∈ i.taken → i.taker ≠ y → ∀ node ∈ recorded, node.toAnyHandle ≠ i.taker

/-- Links and fields say the same of the recorded nodes. -/
structure Agreement (b : Builder) (history : History) : Prop where
  /-- The parent of a node is recorded, and the node is in its fields. -/
  parent_stores : ∀ c ∈ b.ledger.nodes, ∀ p, b.ledger.parent? c.id = some p →
    ∃ holder ∈ b.ledger.nodes, holder.id = p ∧ c.toAnyHandle ∈ b.store.storedAt holder.slot
  /-- What is in the fields of a recorded node is what the node took in. -/
  stored_iff : ∀ holder ∈ b.ledger.nodes, ∀ y,
    y ∈ b.store.storedAt holder.slot ↔ TookIn history.intakes holder.toAnyHandle y
  /-- A node in the fields of another is linked under the one that took it in last. -/
  stored_linked : ∀ holder ∈ b.ledger.nodes, ∀ y ∈ b.store.storedAt holder.slot,
    b.store.idAt y.slot ≠ 0 → b.store.idAt y.slot ≠ holder.id →
    ∃ taker ∈ b.ledger.nodes, b.ledger.parent? (b.store.idAt y.slot) = some taker.id ∧
      taker.toAnyHandle ≠ y ∧ y ∈ b.store.storedAt taker.slot ∧
      TookInLast history b.ledger.nodes taker.toAnyHandle y

namespace Tracked

variable {b : Builder} {h : History}

theorem mem_nodes_iff (t : Tracked b h) {node : NodeRef} :
    node ∈ b.ledger.nodes ↔
      node.toAnyHandle ∈ h.current ∧ b.store.idAt node.slot = node.id ∧ node.id ≠ 0 := by
  rw [t.wellFormed.mem_nodes]
  constructor
  · intro hnode
    obtain ⟨hmem, hid⟩ := t.recorded hnode
    exact ⟨hmem, hid, t.wellFormed.ne_zero_of_node? hnode⟩
  · rintro ⟨hmem, hid, hpos⟩
    have hnode := (t.owns hmem).node?_idAt (hid ▸ hpos)
    rwa [hid] at hnode

theorem tookInLast (t : Tracked b h) {y : AnyHandle} {id : Nat}
    (hlast : lastTakerId b.store y h.intakes = some id) :
    ∃ taker ∈ b.ledger.nodes, taker.id = id ∧ taker.toAnyHandle ≠ y ∧
      y ∈ b.store.storedAt taker.slot ∧ TookInLast h b.ledger.nodes taker.toAnyHandle y := by
  obtain ⟨later, x, taken, earlier, hsplit, hy, hne, hid, hpos, hlater⟩ :=
    exists_of_lastTakerId hlast
  have hintake : (⟨x, taken⟩ : Intake) ∈ h.intakes := by simp [hsplit]
  have hx : x ∈ h.current := (t.taken _ hintake).1
  refine ⟨⟨x, id⟩, t.mem_nodes_iff.mpr ⟨hx, hid, hpos⟩, rfl, hne,
    (t.stored x hx y).mpr ⟨_, hintake, rfl, hy⟩, later, taken, earlier, hsplit, hy, ?_⟩
  intro i hi htaken hother node hnode heq
  obtain ⟨-, hnodeId, hnodePos⟩ := t.mem_nodes_iff.mp hnode
  apply hnodePos
  rw [← hnodeId, heq]
  exact hlater i hi htaken hother

theorem agreement (t : Tracked b h) : Agreement b h := by
  refine ⟨?_, ?_, ?_⟩
  · intro c hc p hparent
    obtain ⟨hmem, hid, hpos⟩ := t.mem_nodes_iff.mp hc
    rw [← hid, t.parent _ hmem (hid ▸ hpos)] at hparent
    obtain ⟨taker, htaker, htakerId, -, hstored, -⟩ := t.tookInLast hparent
    exact ⟨taker, htaker, htakerId, hstored⟩
  · intro holder hholder y
    exact t.stored _ (t.mem_nodes_iff.mp hholder).1 y
  · intro holder hholder y hstored hid hne
    obtain ⟨hmem, hholderId, hpos⟩ := t.mem_nodes_iff.mp hholder
    have htook := (t.stored _ hmem y).mp hstored
    have hy : y ∈ h.current := by
      obtain ⟨i, hi, -, hy⟩ := htook
      exact (t.taken i hi).2 y hy
    have hother : holder.toAnyHandle ≠ y := by
      rintro rfl
      exact hne hholderId
    obtain ⟨id, hlast⟩ := exists_lastTakerId htook hother (hholderId ▸ hpos)
    obtain ⟨taker, htaker, rfl, htakerNe, hstores, htookLast⟩ := t.tookInLast hlast
    exact ⟨taker, htaker, (t.parent y hy hid).trans hlast, htakerNe, hstores, htookLast⟩

end Tracked

/-- Whatever is built in a new builder, under any limit and with any releases, from handles of the
tree that is being built: links and fields agree. -/
theorem run_agreement (store : Store) (config : LedgerConfig) (calls : List Call)
    (hcalls : Builder.Along Call.UsesCurrent { store, ledger := { config } } {} calls) :
    Agreement (Builder.run { store, ledger := { config } } calls).1
      (Builder.history { store, ledger := { config } } {} calls) :=
  ((tracked_new store config).run hcalls).agreement

/-- A run in which an attribute is shared by two lists, goes back to the first one, and in which a
second tree reaches the limit. -/
theorem run_agreement_shared :
    let b : Builder := { ledger := { config := { nodeLimit := some 4 } } }
    let calls : List Call := [
      .construct (.expression (.identifier "a")),
      .construct (.expression (.attributeSpec ⟨0⟩ none)),
      .construct (.expression (.attributeList ⟨1⟩)),
      .construct (.expression (.attributeList ⟨1⟩)),
      .extend (.attributeSpec ⟨2⟩ ⟨1⟩),
      .releaseAll,
      .construct (.expression (.identifier "b")),
      .construct (.expression (.attributeSpec ⟨4⟩ none)),
      .construct (.expression (.attributeSpec ⟨4⟩ none)),
      .construct (.expression (.attributeList ⟨5⟩)),
      .construct (.expression (.attributeList ⟨6⟩)),
      .extend (.attributeSpec ⟨7⟩ ⟨6⟩)]
    b.Along Call.UsesCurrent {} calls ∧ Agreement (b.run calls).1 (b.history {} calls) := by
  refine ⟨by decide, run_agreement _ _ _ (by decide)⟩

end VerilogTree
