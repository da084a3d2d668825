import VerilogTree.Proofs.Ledger.Links

/-!
# The log of links

Parents and lists of children are two records of one thing: the log of the links that had an
effect since the last release. A run of operations on a ledger is observed from outside, by its
calls and answers alone, and the ledger answers as that log says.
-/

namespace VerilogTree.Ledger

/-! ## Reading a log -/

/-- The parent that the last link of a child names. Links are written child first. -/
def lastParent (links : List (Nat × Nat)) (child : Nat) : Option Nat :=
  (links.filter (·.1 == child)).getLast?.map Prod.snd

/-- The links that no later link of the same child replaces. -/
def standing : List (Nat × Nat) → List (Nat × Nat)
  | [] => []
  | link :: later => if later.any (·.1 == link.1) then standing later else link :: standing later

/-- The children whose last link names a parent, in the order of these links. -/
def childrenOf (links : List (Nat × Nat)) (parent : Nat) : List Nat :=
  ((standing links).filter (·.2 == parent)).map Prod.fst

theorem lastParent_concat (links : List (Nat × Nat)) (child parent x : Nat) :
    lastParent (links ++ [(child, parent)]) x =
      if x = child then some parent else lastParent links x := by
  by_cases hx : x = child
  · simp [lastParent, hx]
  · simp [lastParent, hx, Ne.symm hx]

theorem standing_concat (links : List (Nat × Nat)) (child parent : Nat) :
    standing (links ++ [(child, parent)]) =
      (standing links).filter (·.1 != child) ++ [(child, parent)] := by
  induction links with
  | nil => rfl
  | cons link later ih =>
      by_cases hchild : child = link.1
      · subst hchild
        by_cases hany : later.any (·.1 == link.1) = true
        · simp [standing, ih, hany]
        · simp [standing, ih, hany]
      · by_cases hany : later.any (·.1 == link.1) = true
        · simp [standing, ih, hany]
        · simp [standing, ih, hany, hchild, Ne.symm hchild]

theorem childrenOf_concat (links : List (Nat × Nat)) (child parent x : Nat) :
    childrenOf (links ++ [(child, parent)]) x =
      (childrenOf links x).filter (· != child) ++ if x = parent then [child] else [] := by
  have hmap : ∀ pairs : List (Nat × Nat),
      ((pairs.filter (·.1 != child)).filter (·.2 == x)).map Prod.fst =
        ((pairs.filter (·.2 == x)).map Prod.fst).filter (· != child) := by
    intro pairs
    rw [List.filter_map, List.filter_filter, List.filter_filter]
    simp only [Function.comp_def, Bool.and_comm]
  unfold childrenOf
  rw [standing_concat, List.filter_append, List.map_append, hmap]
  by_cases hx : x = parent
  · simp [hx]
  · simp [hx, Ne.symm hx]

/-! ## Ledgers that follow a log -/

/-- The links of a ledger are those of a log. -/
structure Follows (l : Ledger) (links : List (Nat × Nat)) : Prop where
  parent : ∀ c, l.parent? c = lastParent links c
  childIds : ∀ p, l.childIds p = childrenOf links p

theorem Follows.moveUnder {l : Ledger} {links : List (Nat × Nat)} (h : Follows l links)
    (hl : l.WellFormed) {child parent : Nat} (hlink : l.effective child parent = true) :
    Follows (l.moveUnder child parent) (links ++ [(child, parent)]) := by
  obtain ⟨_, hchild, hparent⟩ := (l.effective_iff child parent).mp hlink
  constructor
  · intro c
    rw [parent?_moveUnder hchild, lastParent_concat, h.parent]
  · intro p
    rw [childIds_moveUnder hparent, hl.childIds_detach, childrenOf_concat, h.childIds]

theorem Follows.relink {l : Ledger} {links : List (Nat × Nat)} (h : Follows l links)
    (hl : l.WellFormed) (more : List (Nat × Nat))
    (heff : ∀ link ∈ more, l.effective link.1 link.2 = true) :
    Follows (l.relink more) (links ++ more) := by
  induction more generalizing l links with
  | nil =>
      rw [List.append_nil]
      exact h
  | cons link more ih =>
      have hlink := heff link (by simp)
      rw [List.append_cons]
      exact ih (h.moveUnder hl hlink) (hl.moveUnder hlink) (effective_of_mem_tail heff)

theorem Follows.linkAll {l : Ledger} {links : List (Nat × Nat)} (h : Follows l links)
    (hl : l.WellFormed) (parent : Nat) (children : List Nat) :
    Follows (l.linkAll parent children).1 (links ++ l.linksMade parent children) := by
  rw [linkAll_fst]
  exact h.relink hl _ fun link hlink => (mem_linksMade hlink).2.2

theorem Follows.grown {l : Ledger} {links : List (Nat × Nat)} (h : Follows l links) :
    Follows l.grown links :=
  ⟨fun c => (parent?_grown l c).trans (h.parent c),
    fun p => (childIds_grown l p).trans (h.childIds p)⟩

theorem Follows.withNode {l : Ledger} {links : List (Nat × Nat)} (h : Follows l links)
    (node : NodeRef) : Follows (l.withNode node) links :=
  ⟨fun c => (parent?_withNode l node c).trans (h.parent c),
    fun p => (childIds_withNode l node p).trans (h.childIds p)⟩

theorem follows_new (config : LedgerConfig) : Follows { config } [] := by
  constructor <;> simp [parent?, Ledger.childIds, lastParent, childrenOf, standing]

theorem follows_releaseAll (l : Ledger) : Follows l.releaseAll [] := by
  constructor <;> simp [parent?, Ledger.childIds, lastParent, childrenOf, standing]

/-! ## Runs of operations -/

inductive Operation where
  | allocate
  | record (node : NodeRef)
  | link (child parent : Nat)
  | releaseAll

inductive Answer where
  | granted (id : Nat)
  | failed (failure : Failure)
  | refused (misuse : Misuse)
  | done

/-- One operation. One that fails or is refused leaves the ledger as it was. -/
def perform (l : Ledger) : Operation → Ledger × Answer
  | .allocate =>
    match l.allocate with
    | .ok (id, after) => (after, .granted id)
    | .error failure => (l, .failed failure)
  | .record node =>
    match l.record node with
    | .ok after => (after, .done)
    | .error misuse => (l, .refused misuse)
  | .link child parent =>
    match l.link child parent with
    | .ok after => (after, .done)
    | .error misuse => (l, .refused misuse)
  | .releaseAll => (l.releaseAll, .done)

/-- Operations one after the other, with the answer to each. -/
def run (l : Ledger) : List Operation → Ledger × List Answer
  | [] => (l, [])
  | op :: rest =>
    let (after, answer) := l.perform op
    let (final, answers) := after.run rest
    (final, answer :: answers)

/-- What is known from outside since the last release: the ids that were granted, and the links
between two of them that were not refused. -/
structure Log where
  granted : List Nat := []
  links : List (Nat × Nat) := []

namespace Log

def note (log : Log) : Operation × Answer → Log
  | (.allocate, .granted id) => { log with granted := log.granted ++ [id] }
  | (.link child parent, .done) =>
    if child ≠ parent ∧ child ∈ log.granted ∧ parent ∈ log.granted then
      { log with links := log.links ++ [(child, parent)] }
    else log
  | (.releaseAll, _) => {}
  | _ => log

/-- The log of a run from its operations and answers. -/
def ofRun (ops : List Operation) (answers : List Answer) : Log :=
  (ops.zip answers).foldl note {}

end Log

/-- A ledger is as its log has it. -/
structure Observed (l : Ledger) (log : Log) : Prop where
  wellFormed : l.WellFormed
  granted : ∀ id, id ∈ log.granted ↔ l.isLive id = true
  follows : Follows l log.links

theorem observed_new (config : LedgerConfig) : Observed { config } {} := by
  refine ⟨wellFormed_new config, ?_, follows_new config⟩
  simp [isLive]

theorem Observed.allocate {l : Ledger} {log : Log} (h : Observed l log) :
    Observed (l.perform .allocate).1 (log.note (.allocate, (l.perform .allocate).2)) := by
  by_cases hroom : l.hasRoom
  · simp only [perform, allocate_of_hasRoom hroom, Log.note]
    refine ⟨h.wellFormed.grown, ?_, h.follows.grown⟩
    intro id
    rw [List.mem_append, h.granted, List.mem_singleton, isLive_iff, isLive_iff, firstId_grown,
      size_grown, nextId]
    omega
  · obtain ⟨failure, hfailure⟩ := allocate_of_not_hasRoom hroom
    simpa only [perform, hfailure, Log.note] using h

theorem Observed.record {l : Ledger} {log : Log} (h : Observed l log) (node : NodeRef) :
    Observed (l.perform (.record node)).1
      (log.note (.record node, (l.perform (.record node)).2)) := by
  cases hrecord : l.record node with
  | error misuse => simpa only [perform, hrecord, Log.note] using h
  | ok after =>
      obtain ⟨_, hlive, _, rfl⟩ := (record_eq_ok_iff l node after).mp hrecord
      simp only [perform, hrecord, Log.note]
      refine ⟨h.wellFormed.withNode hlive, ?_, h.follows.withNode node⟩
      intro id
      rw [h.granted, isLive_iff, isLive_iff, firstId_withNode, size_withNode]

theorem Observed.effective_iff {l : Ledger} {log : Log} (h : Observed l log) (child parent : Nat) :
    l.effective child parent = true ↔
      child ≠ parent ∧ child ∈ log.granted ∧ parent ∈ log.granted := by
  rw [Ledger.effective_iff, h.granted, h.granted]

theorem Observed.link {l : Ledger} {log : Log} (h : Observed l log) (child parent : Nat) :
    Observed (l.perform (.link child parent)).1
      (log.note (.link child parent, (l.perform (.link child parent)).2)) := by
  by_cases hreleased : (l.isReleased child || l.isReleased parent) = true
  · simpa only [perform, link_of_released hreleased, Log.note] using h
  · simp only [perform, link_of_not_released (Bool.eq_false_iff.mpr hreleased), Log.note]
    by_cases heff : l.effective child parent = true
    · rw [if_pos heff, if_pos ((h.effective_iff child parent).mp heff)]
      refine ⟨h.wellFormed.moveUnder heff, ?_, h.follows.moveUnder h.wellFormed heff⟩
      intro id
      rw [(moveUnder_linksOnly l child parent).isLive]
      exact h.granted id
    · rw [if_neg heff, if_neg (fun hlog => heff ((h.effective_iff child parent).mpr hlog))]
      exact h

theorem Observed.perform {l : Ledger} {log : Log} (h : Observed l log) (op : Operation) :
    Observed (l.perform op).1 (log.note (op, (l.perform op).2)) := by
  cases op with
  | allocate => exact h.allocate
  | record node => exact h.record node
  | link child parent => exact h.link child parent
  | releaseAll =>
      refine ⟨h.wellFormed.releaseAll, ?_, follows_releaseAll l⟩
      intro id
      simp [Ledger.perform, Log.note, isLive]

theorem Observed.run {l : Ledger} {log : Log} (h : Observed l log) (ops : List Operation) :
    Observed (l.run ops).1 ((ops.zip (l.run ops).2).foldl Log.note log) := by
  induction ops generalizing l log with
  | nil => exact h
  | cons op rest ih => exact ih (h.perform op)

/-! ## Recorded children -/

theorem children_eq_filterMap (l : Ledger) (id : Nat) :
    l.children id = (l.childIds id).filterMap l.node? := by
  unfold children childIds
  cases l.entry? id <;> rfl

theorem WellFormed.map_id_filterMap {l : Ledger} (h : l.WellFormed) (ids : List Nat) :
    ((ids.filterMap l.node?).map fun node => node.id) = ids.filter fun x => (l.node? x).isSome := by
  induction ids with
  | nil => rfl
  | cons x rest ih =>
      cases hx : l.node? x with
      | none => simp [hx, ih]
      | some node => simp [hx, ih, h.node_id hx]

theorem WellFormed.filter_filterMap {l : Ledger} (h : l.WellFormed) (ids : List Nat)
    (child : Nat) :
    (ids.filterMap l.node?).filter (fun node => node.id != child) =
      (ids.filter (· != child)).filterMap l.node? := by
  induction ids with
  | nil => rfl
  | cons x rest ih =>
      by_cases hchild : x = child
      · subst child
        cases hx : l.node? x with
        | none => simp [hx, ih]
        | some node => simp [hx, ih, h.node_id hx]
      · cases hx : l.node? x with
        | none => simp [hx, ih, hchild]
        | some node => simp [hx, ih, hchild, h.node_id hx]

theorem WellFormed.mem_children {l : Ledger} (h : l.WellFormed) {c : Nat} {node : NodeRef}
    (hnode : l.node? c = some node) (p : Nat) : node ∈ l.children p ↔ l.parent? c = some p := by
  rw [children_eq_filterMap, List.mem_filterMap, ← h.mem_childIds]
  constructor
  · rintro ⟨x, hx, hfound⟩
    rwa [← h.node_id hnode, h.node_id hfound]
  · intro hc
    exact ⟨c, hc, hnode⟩

theorem WellFormed.children_moveUnder {l : Ledger} (h : l.WellFormed) {child parent : Nat}
    (hparent : l.isLive parent = true) (q : Nat) :
    (l.moveUnder child parent).children q =
      (l.children q).filter (fun node => node.id != child) ++
        if q = parent then (l.node? child).toList else [] := by
  have hnode : (l.moveUnder child parent).node? = l.node? :=
    funext (moveUnder_linksOnly l child parent).node
  rw [children_eq_filterMap, children_eq_filterMap, childIds_moveUnder hparent, h.childIds_detach,
    hnode, List.filterMap_append, h.filter_filterMap]
  congr 1
  split
  · cases hc : l.node? child <;> simp [hc]
  · rfl

/-! ## A ledger answers as its log says -/

/-- The contract of the links of a ledger with the log of its run. A link has an effect when it is
not refused and joins two different ids granted since the last release. -/
structure LinkSpec (l : Ledger) (log : Log) : Prop where
  parent_eq : ∀ c, l.parent? c = lastParent log.links c
  children_eq : ∀ p, l.children p = (childrenOf log.links p).filterMap l.node?
  children_nodup : ∀ p, ((l.children p).map fun node => node.id).Nodup
  mem_children_iff : ∀ c p node, l.node? c = some node →
    (node ∈ l.children p ↔ l.parent? c = some p)
  children_link : ∀ c p, (∀ misuse, (l.perform (.link c p)).2 ≠ .refused misuse) →
    c ≠ p → c ∈ log.granted → p ∈ log.granted → ∀ q,
    (l.perform (.link c p)).1.children q =
      (l.children q).filter (fun node => node.id != c) ++
        if q = p then (l.node? c).toList else []
  link_without_effect : ∀ c p, (∃ misuse, (l.perform (.link c p)).2 = .refused misuse) ∨
    ¬(c ≠ p ∧ c ∈ log.granted ∧ p ∈ log.granted) → (l.perform (.link c p)).1 = l

theorem Observed.children_link {l : Ledger} {log : Log} (h : Observed l log) {c p : Nat}
    (hrefused : ∀ misuse, (l.perform (.link c p)).2 ≠ .refused misuse) (hne : c ≠ p)
    (hc : c ∈ log.granted) (hp : p ∈ log.granted) (q : Nat) :
    (l.perform (.link c p)).1.children q =
      (l.children q).filter (fun node => node.id != c) ++
        if q = p then (l.node? c).toList else [] := by
  have heff := (h.effective_iff c p).mpr ⟨hne, hc, hp⟩
  by_cases hreleased : (l.isReleased c || l.isReleased p) = true
  · simp only [Ledger.perform, link_of_released hreleased] at hrefused
    exact (hrefused _ rfl).elim
  · simp only [Ledger.perform, link_of_not_released (Bool.eq_false_iff.mpr hreleased), if_pos heff]
    exact h.wellFormed.children_moveUnder ((h.granted p).mp hp) q

theorem Observed.link_without_effect {l : Ledger} {log : Log} (h : Observed l log) {c p : Nat}
    (hwithout : (∃ misuse, (l.perform (.link c p)).2 = .refused misuse) ∨
      ¬(c ≠ p ∧ c ∈ log.granted ∧ p ∈ log.granted)) : (l.perform (.link c p)).1 = l := by
  by_cases hreleased : (l.isReleased c || l.isReleased p) = true
  · simp only [Ledger.perform, link_of_released hreleased]
  · simp only [Ledger.perform, link_of_not_released (Bool.eq_false_iff.mpr hreleased)] at hwithout ⊢
    rcases hwithout with ⟨misuse, hmisuse⟩ | hnot
    · cases hmisuse
    · rw [if_neg fun heff => hnot ((h.effective_iff c p).mp heff)]

/-- After any run of operations a child has the parent that its last effective link names, and a
parent lists the recorded children whose last link names it, once each and in the order of these
links. One more link moves its child to the end and keeps the order of all others, or has no
effect at all. -/
theorem run_links (config : LedgerConfig) (ops : List Operation) :
    LinkSpec (run { config } ops).1 (Log.ofRun ops (run { config } ops).2) := by
  have h : Observed (run { config } ops).1 (Log.ofRun ops (run { config } ops).2) :=
    (observed_new config).run ops
  refine ⟨h.follows.parent, ?_, ?_, ?_, ?_, ?_⟩
  · intro p
    rw [children_eq_filterMap, h.follows.childIds]
  · intro p
    rw [children_eq_filterMap, h.wellFormed.map_id_filterMap]
    exact (h.wellFormed.childIds_nodup p).filter _
  · intro c p node hnode
    exact h.wellFormed.mem_children hnode p
  · intro c p hrefused hne hc hp q
    exact h.children_link hrefused hne hc hp q
  · intro c p hwithout
    exact h.link_without_effect hwithout

end VerilogTree.Ledger
