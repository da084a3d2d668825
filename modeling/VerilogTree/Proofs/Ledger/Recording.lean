import VerilogTree.Proofs.Ledger.Tables

/-!
# Recorded nodes

Granting an id and recording a node under it are two operations, which may be far apart, left out
or tried twice. Whatever a run does, an id that was granted since the last release is found at its
own entry and no other id is found at all, a node is found under its own id alone, and it stays
there up to the next release.
-/

namespace VerilogTree.Ledger

/-! ## What stays recorded -/

theorem node?_eq_some_perform {l : Ledger} {id : Nat} {node : NodeRef}
    (hnode : l.node? id = some node) {op : Operation} (hop : op ≠ .releaseAll) :
    (l.perform op).1.node? id = some node := by
  have hstep := l.performed op
  generalize l.perform op = result at hstep ⊢
  cases hstep with
  | granted => exact (node?_grown l id).trans hnode
  | @recorded other _ hlive hfree =>
      have hne : id ≠ other.id := by
        rintro rfl
        rw [hfree] at hnode
        cases hnode
      exact (node?_withNode hlive id).trans ((if_neg hne).trans hnode)
  | @moved child parent _ => exact ((moveUnder_linksOnly l child parent).node id).trans hnode
  | released => exact absurd rfl hop
  | full | notRecorded | ignored | notLinked => exact hnode

theorem node?_eq_some_run {l : Ledger} {id : Nat} {node : NodeRef}
    (hnode : l.node? id = some node) {ops : List Operation} (hops : ∀ op ∈ ops, op ≠ .releaseAll) :
    (l.run ops).1.node? id = some node := by
  induction ops generalizing l with
  | nil => exact hnode
  | cons op rest ih =>
      have hafter := node?_eq_some_perform hnode (hops op (by simp))
      exact ih hafter fun other hother => hops other (by simp [hother])

/-! ## Entries and nodes under their ids -/

/-- The contract of entries and nodes with the ids granted since the last release. -/
structure RecordSpec (l : Ledger) (granted : List Nat) : Prop where
  /-- A live id is found at the entry that has this id. -/
  entry_of_granted : ∀ id ∈ granted, ∃ e, l.entry? id = some e ∧ e.id = id
  entry_of_not_granted : ∀ id, id ∉ granted → l.entry? id = none
  node_found : ∀ id node, l.node? id = some node → node.id = id ∧ id ∈ granted
  mem_nodes_iff : ∀ node, node ∈ l.nodes ↔ ∃ id, l.node? id = some node
  /-- The nodes are listed in the order of their ids, and so none twice. -/
  nodes_increasing : l.nodes.Pairwise fun a b => a.id < b.id
  nodes_nodup : l.nodes.Nodup
  record_of_free : ∀ node, node.id ∈ granted → l.node? node.id = none →
    (l.perform (.record node)).2 = .done ∧ ∀ id, (l.perform (.record node)).1.node? id =
      if id = node.id then some node else l.node? id
  record_of_not_free : ∀ node, ¬(node.id ∈ granted ∧ l.node? node.id = none) →
    ∃ misuse, l.perform (.record node) = (l, .refused misuse)
  /-- A node stays where it is recorded until the next release. -/
  node_kept : ∀ id node ops, l.node? id = some node → (∀ op ∈ ops, op ≠ .releaseAll) →
    (l.run ops).1.node? id = some node
  sourceTexts_eq : l.sourceTexts = l.nodes.filter (·.kind = .sourceText)
  modules_eq : l.modules = l.nodes.filter (·.kind = .moduleDeclaration)
  udps_eq : l.udps = l.nodes.filter (·.kind = .udpDeclaration)

namespace Observed

variable {l : Ledger} {log : Log}

theorem entry_of_granted (h : Observed l log) {id : Nat} (hid : id ∈ log.granted) :
    ∃ e, l.entry? id = some e ∧ e.id = id := by
  obtain ⟨e, he⟩ := exists_entry_of_isLive ((h.granted id).mp hid)
  exact ⟨e, he, h.wellFormed.entry_id he⟩

theorem entry_of_not_granted (h : Observed l log) {id : Nat} (hid : id ∉ log.granted) :
    l.entry? id = none := by
  apply entry?_eq_none_of_not_isLive
  rw [← Bool.not_eq_true, ← h.granted]
  exact hid

theorem node_found (h : Observed l log) {id : Nat} {node : NodeRef}
    (hnode : l.node? id = some node) : node.id = id ∧ id ∈ log.granted := by
  obtain ⟨e, he, -⟩ := Option.bind_eq_some_iff.mp hnode
  exact ⟨h.wellFormed.node_id hnode, (h.granted id).mpr (isLive_of_eq_some he)⟩

theorem mem_nodes_iff (h : Observed l log) (node : NodeRef) :
    node ∈ l.nodes ↔ ∃ id, l.node? id = some node := by
  rw [h.wellFormed.mem_nodes]
  constructor
  · intro hnode
    exact ⟨node.id, hnode⟩
  · rintro ⟨id, hnode⟩
    rwa [h.wellFormed.node_id hnode]

/-- A node can be recorded exactly when its id is granted and free. -/
theorem record_of_free (h : Observed l log) {node : NodeRef} (hid : node.id ∈ log.granted)
    (hfree : l.node? node.id = none) :
    l.perform (.record node) = (l.withNode node, .done) := by
  have hlive := (h.granted node.id).mp hid
  have hpos : node.id ≠ 0 := by
    have := h.wellFormed.firstId_pos
    have := (l.isLive_iff node.id).mp hlive
    omega
  have hstep := l.performed (.record node)
  generalize l.perform (.record node) = result at hstep ⊢
  cases hstep with
  | recorded => rfl
  | notRecorded _ hnot => exact absurd ⟨hpos, hlive, hfree⟩ hnot

theorem record_of_not_free (h : Observed l log) {node : NodeRef}
    (hnot : ¬(node.id ∈ log.granted ∧ l.node? node.id = none)) :
    ∃ misuse, l.perform (.record node) = (l, .refused misuse) := by
  have hstep := l.performed (.record node)
  generalize l.perform (.record node) = result at hstep ⊢
  cases hstep with
  | recorded _ hlive hfree => exact absurd ⟨(h.granted node.id).mpr hlive, hfree⟩ hnot
  | notRecorded misuse => exact ⟨misuse, rfl⟩

end Observed

theorem Observed.recordSpec {l : Ledger} {log : Log} (h : Observed l log) :
    RecordSpec l log.granted := by
  have hincreasing := h.wellFormed.nodes_increasing
  refine ⟨fun id => h.entry_of_granted, fun id => h.entry_of_not_granted,
    fun id node => h.node_found, h.mem_nodes_iff, hincreasing, ?_, ?_,
    fun node => h.record_of_not_free, ?_, rfl, rfl, rfl⟩
  · refine hincreasing.imp ?_
    rintro a b hlt rfl
    exact Nat.lt_irrefl _ hlt
  · intro node hid hfree
    rw [h.record_of_free hid hfree]
    exact ⟨rfl, node?_withNode ((h.granted node.id).mp hid)⟩
  · intro id node ops hnode hops
    exact node?_eq_some_run hnode hops

/-- After any run of operations, failing and refused ones included, entries and nodes are found
under their own ids and only under ids granted since the last release, the nodes are listed once
each in the order of their ids, a node is recorded exactly when its id is granted and free, and it
stays until the next release. All this is so as well when the nodes and the routes are kept in two
tables. -/
theorem run_records (config : LedgerConfig) (ops : List Operation) :
    RecordSpec (run { config } ops).1 (Log.ofRun ops (run { config } ops).2).granted ∧
      Tables.run { config } ops = ((run { config } ops).1.tables, (run { config } ops).2) ∧
      (run { config } ops).1.tables.listed = (run { config } ops).1.nodes := by
  have h : Observed (run { config } ops).1 (Log.ofRun ops (run { config } ops).2) :=
    (observed_new config).run ops
  refine ⟨h.recordSpec, ?_, h.wellFormed.listed_tables⟩
  have hfirst : 1 ≤ maxId := by decide
  rw [← tables_new]
  exact run_tables hfirst ops

end VerilogTree.Ledger
