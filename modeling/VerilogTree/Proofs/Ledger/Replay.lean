import VerilogTree.Proofs.Ledger.LinkLog

/-!
# Replaying a ledger under a limit

A ledger that was never released is known from its configuration, the number of its ids, its nodes
and the log of its links. From these it can be built again by operations, and so can the ledger
that it would have been had only the first ids been granted.
-/

namespace VerilogTree.Ledger

theorem run_append (l : Ledger) (ops more : List Operation) :
    (l.run (ops ++ more)).1 = ((l.run ops).1.run more).1 := by
  induction ops generalizing l with
  | nil => rfl
  | cons op rest ih => exact ih _

/-- Links that have an effect are made one after the other. -/
theorem run_link_eq_relink {l : Ledger} (links : List (Nat × Nat))
    (heff : ∀ link ∈ links, l.effective link.1 link.2 = true) :
    (l.run (links.map fun link => .link link.1 link.2)).1 = l.relink links := by
  induction links generalizing l with
  | nil => rfl
  | cons link links ih =>
      have hlink := heff link (by simp)
      obtain ⟨_, hchild, hparent⟩ := (l.effective_iff _ _).mp hlink
      have hfree : (l.isReleased link.1 || l.isReleased link.2) = false := by
        rw [isReleased_eq_false fun _ => hchild, isReleased_eq_false fun _ => hparent]
        rfl
      have hstep : (l.perform (.link link.1 link.2)).1 = l.moveUnder link.1 link.2 := by
        simp only [perform, link_of_not_released hfree, if_pos hlink]
      have hrest := effective_of_mem_tail heff
      rw [← hstep] at hrest
      refine (ih hrest).trans ?_
      rw [hstep]
      rfl

/-! ## Descriptions -/

/-- All there is to know of a ledger that was never released. -/
structure Described (l : Ledger) (config : LedgerConfig) (size : Nat)
    (node : Nat → Option NodeRef) (links : List (Nat × Nat)) : Prop where
  wellFormed : l.WellFormed
  config_eq : l.config = config
  firstId_eq : l.firstId = 1
  size_eq : l.size = size
  node_eq : ∀ id, l.node? id = node id
  follows : Follows l links

theorem described_new (config : LedgerConfig) :
    Described { config } config 0 (fun _ => none) [] :=
  ⟨wellFormed_new config, rfl, rfl, rfl, fun _ => by simp [node?], follows_new config⟩

namespace Described

variable {l l' : Ledger} {config : LedgerConfig} {size : Nat} {node : Nat → Option NodeRef}
  {links : List (Nat × Nat)}

theorem isLive_iff (h : Described l config size node links) (id : Nat) :
    l.isLive id = true ↔ 1 ≤ id ∧ id ≤ size := by
  rw [Ledger.isLive_iff, h.firstId_eq, h.size_eq]
  omega

theorem unique (h : Described l config size node links)
    (h' : Described l' config size node links) : l = l' := by
  apply eq_of_entry? (h.config_eq.trans h'.config_eq.symm) (h.firstId_eq.trans h'.firstId_eq.symm)
  intro id
  have hlive : l.isLive id = l'.isLive id := by
    rw [Bool.eq_iff_iff, h.isLive_iff, h'.isLive_iff]
  cases he : l.entry? id with
  | none => cases he' : l'.entry? id <;> simp [isLive, he, he'] at hlive ⊢
  | some e =>
      cases he' : l'.entry? id with
      | none => simp [isLive, he, he'] at hlive
      | some e' =>
          have hid : e.id = e'.id :=
            (h.wellFormed.entry_id he).trans (h'.wellFormed.entry_id he').symm
          have hnode := (h.node_eq id).trans (h'.node_eq id).symm
          have hparent := (h.follows.parent id).trans (h'.follows.parent id).symm
          have hchildren := (h.follows.childIds id).trans (h'.follows.childIds id).symm
          simp only [node?, parent?, childIds, he, he', Option.bind_some, Option.elim_some]
            at hnode hparent hchildren
          cases e
          cases e'
          simp_all

theorem grown (h : Described l config size node links) :
    Described l.grown config (size + 1) node links :=
  ⟨h.wellFormed.grown, h.config_eq, h.firstId_eq, by rw [size_grown, h.size_eq],
    fun id => (node?_grown l id).trans (h.node_eq id), h.follows.grown⟩

theorem withNode (h : Described l config size node links) {r : NodeRef}
    (hlive : l.isLive r.id = true) :
    Described (l.withNode r) config size
      (fun id => if id = r.id then some r else node id) links := by
  refine ⟨h.wellFormed.withNode hlive, ?_, ?_, ?_, ?_, h.follows.withNode r⟩
  · rw [config_withNode, h.config_eq]
  · rw [firstId_withNode, h.firstId_eq]
  · rw [size_withNode, h.size_eq]
  · intro id
    rw [node?_withNode hlive, h.node_eq]

theorem relink (h : Described l config size node links) (more : List (Nat × Nat))
    (heff : ∀ link ∈ more, l.effective link.1 link.2 = true) :
    Described (l.relink more) config size node (links ++ more) := by
  have hframe := relink_linksOnly l more
  exact ⟨h.wellFormed.relink more heff, hframe.config.trans h.config_eq,
    hframe.firstId.trans h.firstId_eq, hframe.size.trans h.size_eq,
    fun id => (hframe.node id).trans (h.node_eq id), h.follows.relink h.wellFormed more heff⟩

/-! ## Operations on a described ledger -/

theorem allocate (h : Described l config size node links)
    (hlimit : ∀ limit ∈ config.nodeLimit, size < limit) (hmax : size < maxId) :
    Described (l.perform .allocate).1 config (size + 1) node links := by
  have hroom : l.hasRoom := by
    rw [hasRoom, h.config_eq, nextId, h.firstId_eq, h.size_eq]
    exact ⟨hlimit, by omega⟩
  simpa only [perform, allocate_of_hasRoom hroom] using h.grown

theorem run_allocate (h : Described l config size node links) (count : Nat)
    (hlimit : ∀ limit ∈ config.nodeLimit, size + count ≤ limit) (hmax : size + count ≤ maxId) :
    Described (l.run (List.replicate count .allocate)).1 config (size + count) node links := by
  induction count generalizing l size with
  | zero => exact h
  | succ count ih =>
      have hstep := h.allocate (fun limit hl => by have := hlimit limit hl; omega) (by omega)
      have hrest := ih hstep (fun limit hl => by have := hlimit limit hl; omega) (by omega)
      rwa [Nat.add_assoc, Nat.add_comm 1] at hrest

theorem record (h : Described l config size node links) {r : NodeRef}
    (hlive : 1 ≤ r.id ∧ r.id ≤ size) (hfree : node r.id = none) :
    Described (l.perform (.record r)).1 config size
      (fun id => if id = r.id then some r else node id) links := by
  have hlive' := (h.isLive_iff r.id).mpr hlive
  have hrecord : l.record r = .ok (l.withNode r) :=
    (record_eq_ok_iff l r _).mpr ⟨by omega, hlive', (h.node_eq r.id).trans hfree, rfl⟩
  simpa only [perform, hrecord] using h.withNode hlive'

theorem run_record (h : Described l config size node links) (nodes : List NodeRef)
    (hlive : ∀ r ∈ nodes, 1 ≤ r.id ∧ r.id ≤ size) (hfree : ∀ r ∈ nodes, node r.id = none)
    (hdistinct : nodes.Pairwise fun r r' => r.id ≠ r'.id) :
    Described (l.run (nodes.map .record)).1 config size
      (fun id => (nodes.find? fun r => r.id == id).or (node id)) links := by
  induction nodes generalizing l node with
  | nil => exact h
  | cons r nodes ih =>
      obtain ⟨hne, hdistinct⟩ := List.pairwise_cons.mp hdistinct
      have hstep := h.record (hlive r (by simp)) (hfree r (by simp))
      have hrest := ih hstep (fun r' hr' => hlive r' (by simp [hr']))
        (fun r' hr' => by rw [if_neg (hne r' hr').symm, hfree r' (by simp [hr'])]) hdistinct
      refine ⟨hrest.wellFormed, hrest.config_eq, hrest.firstId_eq, hrest.size_eq, ?_,
        hrest.follows⟩
      intro id
      refine (hrest.node_eq id).trans ?_
      by_cases hid : id = r.id
      · subst hid
        have hnone : (nodes.find? fun r' => r'.id == r.id) = none := by
          apply List.find?_eq_none.mpr
          intro r' hr'
          simpa using (hne r' hr').symm
        simp [hnone]
      · simp [hid, Ne.symm hid]

theorem run_link (h : Described l config size node links) (more : List (Nat × Nat))
    (heff : ∀ link ∈ more, l.effective link.1 link.2 = true) :
    Described (l.run (more.map fun link => .link link.1 link.2)).1 config size node
      (links ++ more) := by
  rw [run_link_eq_relink more heff]
  exact h.relink more heff

end Described

/-! ## Replay -/

/-- A link between two of the ids up to a limit. -/
def within (limit : Nat) (link : Nat × Nat) : Bool := link.1 ≤ limit && link.2 ≤ limit

/-- The operations that grant the first ids of a ledger again, record their nodes, and make the
links between them. -/
def replay (limit : Nat) (l : Ledger) (links : List (Nat × Nat)) : List Operation :=
  List.replicate (min l.size limit) .allocate ++
    (l.nodes.filter fun node => node.id ≤ limit).map .record ++
    (links.filter (within limit)).map fun link => .link link.1 link.2

theorem WellFormed.find?_nodes {l : Ledger} (h : l.WellFormed) (limit id : Nat) :
    ((l.nodes.filter fun node => node.id ≤ limit).find? fun node => node.id == id) =
      if id ≤ limit then l.node? id else none := by
  cases hfind : (l.nodes.filter fun node => node.id ≤ limit).find? fun node => node.id == id with
  | none =>
      have hnone := List.find?_eq_none.mp hfind
      split
      · rename_i hid
        cases hnode : l.node? id with
        | none => rfl
        | some node =>
            obtain rfl := h.node_id hnode
            have hmem : node ∈ l.nodes.filter fun node => node.id ≤ limit :=
              List.mem_filter.mpr ⟨h.mem_nodes.mpr hnode, decide_eq_true hid⟩
            exact absurd (beq_self_eq_true _) (hnone node hmem)
      · rfl
  | some node =>
      obtain ⟨hmem, hle⟩ := List.mem_filter.mp (List.mem_of_find?_eq_some hfind)
      have hid := List.find?_some hfind
      rw [beq_iff_eq] at hid
      subst hid
      rw [if_pos (of_decide_eq_true hle), h.mem_nodes.mp hmem]

/-- The replay of a ledger builds what the ledger says of the ids up to the limit. -/
theorem replay_described {l : Ledger} (hl : l.WellFormed) (hfirst : l.firstId = 1)
    (hmax : l.size ≤ maxId) {links : List (Nat × Nat)}
    (hlinks : ∀ link ∈ links, l.effective link.1 link.2 = true) (config : LedgerConfig)
    (limit : Nat) :
    Described (run { config := { config with nodeLimit := some limit } } (replay limit l links)).1
      { config with nodeLimit := some limit } (min l.size limit)
      (fun id => if id ≤ limit then l.node? id else none) (links.filter (within limit)) := by
  have hlive : ∀ id, l.isLive id = true → id ≤ limit → 1 ≤ id ∧ id ≤ min l.size limit := by
    intro id hid hle
    rw [isLive_iff, hfirst] at hid
    omega
  -- The three parts of the replay, each on the ledger that the one before it leaves.
  have hgranted := (described_new { config with nodeLimit := some limit }).run_allocate
    (min l.size limit) (fun m hm => by cases hm; omega) (by omega)
  rw [Nat.zero_add] at hgranted
  have hrecorded := hgranted.run_record (l.nodes.filter fun node => node.id ≤ limit)
    (by
      intro r hr
      obtain ⟨hmem, hle⟩ := List.mem_filter.mp hr
      obtain ⟨e, he, -⟩ := Option.bind_eq_some_iff.mp (hl.mem_nodes.mp hmem)
      exact hlive r.id (isLive_of_eq_some he) (of_decide_eq_true hle))
    (fun _ _ => rfl) ((hl.nodes_increasing.imp Nat.ne_of_lt).filter _)
  have hlinked := hrecorded.run_link (links.filter (within limit))
    (by
      intro link hlink
      obtain ⟨hmem, hle⟩ := List.mem_filter.mp hlink
      obtain ⟨hne, hchild, hparent⟩ := (l.effective_iff _ _).mp (hlinks link hmem)
      simp only [within, Bool.and_eq_true, decide_eq_true_eq] at hle
      rw [effective_iff, hrecorded.isLive_iff, hrecorded.isLive_iff]
      exact ⟨hne, hlive _ hchild hle.1, hlive _ hparent hle.2⟩)
  simpa [replay, run_append, hl.find?_nodes] using hlinked

end VerilogTree.Ledger
