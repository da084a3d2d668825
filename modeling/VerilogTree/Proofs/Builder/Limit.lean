import VerilogTree.Proofs.Ledger.Replay
import VerilogTree.Proofs.Production.Handles
import VerilogTree.Proofs.Store.Renaming

/-!
# Running out of ids

The same calls are run twice, without a limit and with one. Where the first run has an id above
the limit, the second has none; nothing else about the tree is different, and the ledger of the
second run is what remains of the first one when it is cut down to the ids up to the limit.
-/

namespace VerilogTree

/-- The id that takes the place of an id under a limit. -/
def cap (limit id : Nat) : Nat := if id ≤ limit then id else 0

theorem cap_zero (limit : Nat) : cap limit 0 = 0 := by simp [cap]

theorem cap_of_le {limit id : Nat} (h : id ≤ limit) : cap limit id = id := if_pos h

theorem cap_of_lt {limit id : Nat} (h : limit < id) : cap limit id = 0 := if_neg (Nat.not_le.mpr h)

/-! ## Ledgers -/

namespace Ledger

/-- The second ledger is the first one cut down to the ids up to a limit. -/
structure CutDown (limit : Nat) (config : LedgerConfig) (u v : Ledger)
    (links : List (Nat × Nat)) : Prop where
  wellFormed : u.WellFormed
  unlimited : u.config.nodeLimit = none
  firstId_eq : u.firstId = 1
  size_le : u.size ≤ maxId
  effective : ∀ link ∈ links, u.effective link.1 link.2 = true
  follows : Follows u links
  described : Described v { config with nodeLimit := some limit } (min u.size limit)
    (fun id => if id ≤ limit then u.node? id else none) (links.filter (within limit))

theorem cutDown_new (limit : Nat) (config : LedgerConfig) :
    CutDown limit config { config := { config with nodeLimit := none } }
      { config := { config with nodeLimit := some limit } } [] := by
  refine ⟨wellFormed_new _, rfl, rfl, Nat.zero_le _, by simp, follows_new _, ?_⟩
  simpa [size, node?] using described_new { config with nodeLimit := some limit }

namespace CutDown

variable {limit : Nat} {config : LedgerConfig} {u v : Ledger} {links : List (Nat × Nat)}

theorem isReleased_eq_false (h : CutDown limit config u v links) (id : Nat) :
    u.isReleased id = false ∧ v.isReleased id = false := by
  constructor
  · rw [← Bool.not_eq_true, isReleased_iff, h.firstId_eq]
    omega
  · rw [← Bool.not_eq_true, isReleased_iff, h.described.firstId_eq]
    omega

/-- Without released ids nothing is refused. -/
theorem linkAll_eq_ok (h : CutDown limit config u v links) (p p' : Nat) (ids ids' : List Nat) :
    (u.linkAll p ids).2 = .ok () ∧ (v.linkAll p' ids').2 = .ok () :=
  ⟨Ledger.linkAll_eq_ok (h.isReleased_eq_false p).1 fun c _ => (h.isReleased_eq_false c).1,
    Ledger.linkAll_eq_ok (h.isReleased_eq_false p').2 fun c _ => (h.isReleased_eq_false c).2⟩

theorem hasRoom_iff (h : CutDown limit config u v links) : u.hasRoom ↔ u.size < maxId := by
  simp [hasRoom, h.unlimited, nextId, h.firstId_eq]
  omega

theorem hasRoom_limited_iff (h : CutDown limit config u v links) :
    v.hasRoom ↔ u.size < limit ∧ u.size < maxId := by
  have := h.size_le
  simp [hasRoom, h.described.config_eq, nextId, h.described.firstId_eq, h.described.size_eq]
  omega

/-- The ledger without a limit grants an id, the other one may follow. -/
theorem grown (h : CutDown limit config u v links) (hmax : u.size < maxId) {v' : Ledger}
    (hv : Described v' { config with nodeLimit := some limit } (min (u.size + 1) limit)
      (fun id => if id ≤ limit then u.node? id else none) (links.filter (within limit))) :
    CutDown limit config u.grown v' links := by
  refine ⟨h.wellFormed.grown, h.unlimited, h.firstId_eq, by rw [size_grown]; exact hmax, ?_,
    h.follows.grown, ?_⟩
  · intro link hlink
    have heff := h.effective link hlink
    simp only [Ledger.effective_iff, Ledger.isLive_iff, firstId_grown, size_grown] at heff ⊢
    omega
  · simpa only [size_grown, node?_grown] using hv

theorem grown_both (h : CutDown limit config u v links) (hlimit : u.size < limit)
    (hmax : u.size < maxId) : CutDown limit config u.grown v.grown links := by
  have hsize : min (u.size + 1) limit = min u.size limit + 1 := by omega
  exact h.grown hmax (hsize ▸ h.described.grown)

theorem grown_left (h : CutDown limit config u v links) (hlimit : limit ≤ u.size)
    (hmax : u.size < maxId) : CutDown limit config u.grown v links := by
  have hsize : min (u.size + 1) limit = min u.size limit := by omega
  exact h.grown hmax (hsize ▸ h.described)

/-- Ids up to the limit are live in both ledgers or in neither. -/
theorem isLive_iff (h : CutDown limit config u v links) {id id' : Nat}
    (hid : id' = id ∨ id' = cap limit id) :
    v.isLive id' = true ↔ u.isLive id = true ∧ id ≤ limit := by
  rw [h.described.isLive_iff, Ledger.isLive_iff, h.firstId_eq]
  unfold cap at hid
  split at hid <;> omega

theorem effective_iff (h : CutDown limit config u v links) {c c' p p' : Nat}
    (hc : c' = c ∨ c' = cap limit c) (hp : p' = p ∨ p' = cap limit p) :
    v.effective c' p' = true ↔ u.effective c p = true ∧ within limit (c, p) = true := by
  have heq : c ≤ limit → p ≤ limit → c' = c ∧ p' = p := by
    intro hleC hleP
    rw [cap_of_le hleC, or_self] at hc
    rw [cap_of_le hleP, or_self] at hp
    exact ⟨hc, hp⟩
  rw [Ledger.effective_iff, Ledger.effective_iff, h.isLive_iff hc, h.isLive_iff hp, within,
    Bool.and_eq_true, decide_eq_true_eq, decide_eq_true_eq]
  constructor
  · rintro ⟨hne, ⟨hliveC, hleC⟩, hliveP, hleP⟩
    obtain ⟨rfl, rfl⟩ := heq hleC hleP
    exact ⟨⟨hne, hliveC, hliveP⟩, hleC, hleP⟩
  · rintro ⟨⟨hne, hliveC, hliveP⟩, hleC, hleP⟩
    obtain ⟨rfl, rfl⟩ := heq hleC hleP
    exact ⟨hne, ⟨hliveC, hleC⟩, hliveP, hleP⟩

/-- The links made under the limit are those of the other run between ids up to the limit. -/
theorem linksMade_eq (h : CutDown limit config u v links) {p p' : Nat}
    (hp : p' = p ∨ p' = cap limit p) {f f' : AnyHandle → Nat}
    (hf : ∀ x, f' x = f x ∨ f' x = cap limit (f x)) (handles : List AnyHandle) :
    v.linksMade p' (handles.map f') = (u.linksMade p (handles.map f)).filter (within limit) := by
  induction handles with
  | nil => rfl
  | cons x rest ih =>
      have heff := h.effective_iff (hf x) hp
      rw [List.map_cons, List.map_cons, linksMade_cons, linksMade_cons]
      simp only [h.isReleased_eq_false, Bool.or_self, Bool.false_eq_true, if_false, ih]
      by_cases hu : u.effective (f x) p = true
      · rw [if_pos hu, List.filter_cons]
        by_cases hw : within limit (f x, p) = true
        · -- Ids up to the limit stand for themselves in both ledgers.
          obtain ⟨hleX, hleP⟩ : f x ≤ limit ∧ p ≤ limit := by simpa [within] using hw
          have hx : f' x = f x := by simpa [cap_of_le hleX] using hf x
          have hp' : p' = p := by simpa [cap_of_le hleP] using hp
          rw [if_pos hw, if_pos (heff.mpr ⟨hu, hw⟩), hx, hp']
        · rw [if_neg hw, if_neg fun hv => hw (heff.mp hv).2]
      · rw [if_neg hu, if_neg fun hv => hu (heff.mp hv).1]

/-- Linking the same handles in both ledgers. -/
theorem linkAll (h : CutDown limit config u v links) {p p' : Nat}
    (hp : p' = p ∨ p' = cap limit p) {f f' : AnyHandle → Nat}
    (hf : ∀ x, f' x = f x ∨ f' x = cap limit (f x)) (handles : List AnyHandle) :
    CutDown limit config (u.linkAll p (handles.map f)).1 (v.linkAll p' (handles.map f')).1
      (links ++ u.linksMade p (handles.map f)) := by
  have hframe := linkAll_linksOnly u p (handles.map f)
  refine ⟨h.wellFormed.linkAll _ _, hframe.config ▸ h.unlimited, hframe.firstId.trans h.firstId_eq,
    hframe.size ▸ h.size_le, ?_, h.follows.linkAll h.wellFormed _ _, ?_⟩
  · intro link hlink
    rw [hframe.effective]
    rcases List.mem_append.mp hlink with hold | hnew
    · exact h.effective link hold
    · exact (mem_linksMade hnew).2.2
  · have hlinked := h.described.relink (v.linksMade p' (handles.map f'))
      fun link hlink => (mem_linksMade hlink).2.2
    rw [← linkAll_fst] at hlinked
    simpa only [hframe.size, hframe.node, List.filter_append, h.linksMade_eq hp hf] using hlinked

/-- The ledger without a limit records a node, the other one may follow. -/
theorem withNode (h : CutDown limit config u v links) {node : NodeRef}
    (hlive : u.isLive node.id = true) {v' : Ledger}
    (hv : Described v' { config with nodeLimit := some limit } (min u.size limit)
      (fun id => if id ≤ limit then if id = node.id then some node else u.node? id else none)
      (links.filter (within limit))) :
    CutDown limit config (u.withNode node) v' links := by
  refine ⟨h.wellFormed.withNode hlive, by rw [config_withNode, h.unlimited],
    by rw [firstId_withNode, h.firstId_eq], by rw [size_withNode]; exact h.size_le, ?_,
    h.follows.withNode node, ?_⟩
  · intro link hlink
    have heff := h.effective link hlink
    simpa only [Ledger.effective_iff, Ledger.isLive_iff, firstId_withNode, size_withNode] using heff
  · simpa only [size_withNode, node?_withNode hlive] using hv

theorem withNode_both (h : CutDown limit config u v links) {node : NodeRef}
    (hlive : u.isLive node.id = true) (hle : node.id ≤ limit) :
    CutDown limit config (u.withNode node) (v.withNode node) links := by
  have hnode := h.described.withNode ((h.isLive_iff (.inl rfl)).mpr ⟨hlive, hle⟩)
  refine h.withNode hlive ⟨hnode.wellFormed, hnode.config_eq, hnode.firstId_eq, hnode.size_eq, ?_,
    hnode.follows⟩
  intro id
  rw [hnode.node_eq]
  by_cases hid : id = node.id
  · simp [hid, hle]
  · simp [hid]

theorem withNode_left (h : CutDown limit config u v links) {node : NodeRef}
    (hlive : u.isLive node.id = true) (hlt : limit < node.id) :
    CutDown limit config (u.withNode node) v links := by
  have hv := h.described
  refine h.withNode hlive ⟨hv.wellFormed, hv.config_eq, hv.firstId_eq, hv.size_eq, ?_, hv.follows⟩
  intro id
  rw [hv.node_eq]
  by_cases hid : id = node.id
  · simp [hid, Nat.not_le.mpr hlt]
  · simp [hid]

end CutDown

end Ledger

namespace Builder

/-! ## Calls -/

/-- The links that a call makes, in order. -/
def linksOf (b : Builder) : Call → List (Nat × Nat)
  | .construct p =>
    match p.body b.store with
    | .error _ => []
    | .ok body => b.granted.ledger.linksMade b.newId (b.store.idsOf body.links)
  | .extend e => b.ledger.linksMade (b.store.idAt e.target.slot) (b.store.idsOf e.links)
  | .releaseAll => []

/-- The links that are made in a run, in order. -/
def linkLog (b : Builder) : List Call → List (Nat × Nat)
  | [] => []
  | c :: rest => b.linksOf c ++ (b.call c).1.linkLog rest

/-- The second builder has made the same tree as the first under a limit. Nodes before position
`first` were there at the start. -/
structure CutDown (limit first : Nat) (config : LedgerConfig) (u v : Builder)
    (links : List (Nat × Nat)) : Prop where
  store_eq : v.store = u.store.mapIds first (cap limit)
  first_le : first ≤ u.store.size
  ledger : Ledger.CutDown limit config u.ledger v.ledger links

namespace CutDown

variable {limit first : Nat} {config : LedgerConfig} {u v : Builder} {links : List (Nat × Nat)}

theorem idAt (h : CutDown limit first config u v links) (slot : Nat) :
    v.store.idAt slot = u.store.idAt slot ∨
      v.store.idAt slot = cap limit (u.store.idAt slot) := by
  rw [h.store_eq, Store.idAt_mapIds (cap_zero limit)]
  split
  · exact .inr rfl
  · exact .inl rfl

theorem newId (h : CutDown limit first config u v links) : v.newId = cap limit u.newId := by
  have hu := h.ledger.hasRoom_iff
  have hv := h.ledger.hasRoom_limited_iff
  have hsize := h.ledger.described.size_eq
  by_cases hmax : u.ledger.size < Ledger.maxId
  · rw [newId_of_hasRoom (hu.mpr hmax), Ledger.nextId, h.ledger.firstId_eq]
    by_cases hlimit : u.ledger.size < limit
    · rw [newId_of_hasRoom (hv.mpr ⟨hlimit, hmax⟩), cap_of_le (by omega), Ledger.nextId,
        h.ledger.described.firstId_eq, hsize]
      omega
    · rw [newId_of_not_hasRoom fun hroom => hlimit (hv.mp hroom).1, cap_of_lt (by omega)]
  · rw [newId_of_not_hasRoom fun hroom => hmax (hu.mp hroom),
      newId_of_not_hasRoom fun hroom => hmax (hv.mp hroom).2, cap_zero]

theorem granted (h : CutDown limit first config u v links) :
    Ledger.CutDown limit config u.granted.ledger v.granted.ledger links := by
  have hu := h.ledger.hasRoom_iff
  have hv := h.ledger.hasRoom_limited_iff
  by_cases hmax : u.ledger.size < Ledger.maxId
  · rw [granted_of_hasRoom (hu.mpr hmax)]
    by_cases hlimit : u.ledger.size < limit
    · rw [granted_of_hasRoom (hv.mpr ⟨hlimit, hmax⟩)]
      exact h.ledger.grown_both hlimit hmax
    · rw [granted_ledger_of_not_hasRoom fun hroom => hlimit (hv.mp hroom).1]
      exact h.ledger.grown_left (Nat.not_lt.mp hlimit) hmax
  · rw [granted_ledger_of_not_hasRoom fun hroom => hmax (hu.mp hroom),
      granted_ledger_of_not_hasRoom fun hroom => hmax (hv.mp hroom).2]
    exact h.ledger

theorem newRef (h : CutDown limit first config u v links) (body : Body) :
    v.newRef body = (u.newRef body).mapId (cap limit) := by
  rw [Builder.newRef, h.newId, h.store_eq, Store.size_mapIds]
  rfl

theorem constructed (h : CutDown limit first config u v links) (body : Body) :
    CutDown limit first config (u.constructed body) (v.constructed body)
      (links ++ u.granted.ledger.linksMade u.newId (u.store.idsOf body.links)) := by
  have hlinked : Ledger.CutDown limit config (u.linkedLedger body) (v.linkedLedger body) _ :=
    h.granted.linkAll (.inr h.newId) (fun x => h.idAt x.slot) body.links
  refine ⟨?_, ?_, ?_⟩
  · simp only [Builder.constructed]
    rw [Store.mapIds_add h.first_le, ← h.store_eq, h.newId]
    rfl
  · simp only [Builder.constructed, Store.size_add]
    exact Nat.le_succ_of_le h.first_le
  · simp only [Builder.constructed]
    by_cases hzero : u.newId = 0
    · rw [if_pos hzero, if_pos (by rw [h.newId, hzero, cap_zero])]
      exact hlinked
    · have hlive : (u.linkedLedger body).isLive u.newId = true :=
        ((u.linkedLedger_linksOnly body).isLive _).trans (newId_isLive hzero)
      rw [if_neg hzero]
      by_cases hle : u.newId ≤ limit
      · have href : v.newRef body = u.newRef body := by
          rw [h.newRef, NodeRef.mapId, Builder.newRef, cap_of_le hle]
        rw [if_neg (by rwa [h.newId, cap_of_le hle]), href]
        exact hlinked.withNode_both hlive hle
      · rw [if_pos (by rw [h.newId, cap_of_lt (Nat.not_le.mp hle)])]
        exact hlinked.withNode_left hlive (Nat.not_le.mp hle)

theorem extended (h : CutDown limit first config u v links) (e : Extension) :
    CutDown limit first config (u.extended e) (v.extended e)
      (links ++ u.ledger.linksMade (u.store.idAt e.target.slot) (u.store.idsOf e.links)) := by
  refine ⟨?_, ?_, ?_⟩
  · simp only [Builder.extended]
    rw [Store.mapIds_modify, ← h.store_eq]
  · simp only [Builder.extended, Store.size_modify]
    exact h.first_le
  · exact h.ledger.linkAll (h.idAt _) (fun x => h.idAt x.slot) e.links

/-- One call makes the same in both runs, and is refused in both for the same reason. -/
theorem call (h : CutDown limit first config u v links) {c : Call} (hc : c ≠ .releaseAll) :
    CutDown limit first config (u.call c).1 (v.call c).1 (links ++ u.linksOf c) ∧
      (v.call c).2 = (u.call c).2.map (Option.map (NodeRef.mapId (cap limit))) := by
  cases c with
  | construct p =>
      have hsame : p.body v.store = p.body u.store := by
        rw [h.store_eq]
        exact Production.body_congr Store.body?_mapIds p
      cases hbody : p.body u.store with
      | error misuse =>
          simp only [Builder.call, construct_of_error hbody,
            construct_of_error (hsame.trans hbody), linksOf, hbody, List.append_nil]
          exact ⟨h, rfl⟩
      | ok body =>
          obtain ⟨hu, hv⟩ := h.granted.linkAll_eq_ok u.newId v.newId (u.store.idsOf body.links)
            (v.store.idsOf body.links)
          simp only [Builder.call, construct_of_ok hbody, construct_of_ok (hsame.trans hbody), hu,
            hv, linksOf, hbody]
          refine ⟨h.constructed body, ?_⟩
          rw [h.newRef]
          rfl
  | extend e =>
      obtain ⟨hu, hv⟩ := h.ledger.linkAll_eq_ok (u.store.idAt e.target.slot)
        (v.store.idAt e.target.slot) (u.store.idsOf e.links) (v.store.idsOf e.links)
      simp only [Builder.call, extend_of_not_released (h.ledger.isReleased_eq_false _).1,
        extend_of_not_released (h.ledger.isReleased_eq_false _).2, hu, hv, linksOf]
      exact ⟨h.extended e, rfl⟩
  | releaseAll => exact absurd rfl hc

theorem run (h : CutDown limit first config u v links) {calls : List Call}
    (hcalls : Call.releaseAll ∉ calls) :
    CutDown limit first config (u.run calls).1 (v.run calls).1 (links ++ u.linkLog calls) ∧
      (v.run calls).2 =
        (u.run calls).2.map (Except.map (Option.map (NodeRef.mapId (cap limit)))) := by
  induction calls generalizing u v links with
  | nil =>
      rw [linkLog, List.append_nil]
      exact ⟨h, rfl⟩
  | cons c rest ih =>
      obtain ⟨hne, hrest⟩ := List.ne_and_not_mem_of_not_mem_cons hcalls
      obtain ⟨hcall, hanswer⟩ := h.call hne.symm
      obtain ⟨hrun, hanswers⟩ := ih hcall hrest
      rw [linkLog, ← List.append_assoc]
      refine ⟨hrun, ?_⟩
      simp only [Builder.run, List.map_cons, hanswer, hanswers]

end CutDown

/-! ## Runs -/

/-- What a limit changes. The answers and the nodes of the limited run are those of the other one
with the ids above the limit gone, and its ledger grants, records and links what the other one did
with the ids up to the limit. The log is that of the unlimited run. Nodes before position `first`
were there at the start. -/
structure LimitSpec (limit first : Nat) (config : LedgerConfig)
    (unlimited limited : Builder × List (Except Misuse (Option NodeRef)))
    (links : List (Nat × Nat)) : Prop where
  answers_eq :
    limited.2 = unlimited.2.map (Except.map (Option.map (NodeRef.mapId (cap limit))))
  store_eq : limited.1.store = unlimited.1.store.mapIds first (cap limit)
  log_eq : Ledger.Follows unlimited.1.ledger links
  ledger_eq : limited.1.ledger =
    (Ledger.run { config := { config with nodeLimit := some limit } }
      (Ledger.replay limit unlimited.1.ledger links)).1

/-- Running out of ids does not change the tree. -/
theorem run_nodeLimit (store : Store) (config : LedgerConfig) (limit : Nat) (calls : List Call)
    (hcalls : Call.releaseAll ∉ calls) :
    let unlimited : Builder := { store, ledger := { config := { config with nodeLimit := none } } }
    let limited : Builder :=
      { store, ledger := { config := { config with nodeLimit := some limit } } }
    LimitSpec limit store.size config (unlimited.run calls) (limited.run calls)
      (unlimited.linkLog calls) := by
  intro unlimited limited
  have hnew : CutDown limit store.size config unlimited limited [] :=
    ⟨(Store.mapIds_self (Nat.le_refl _)).symm, Nat.le_refl _, Ledger.cutDown_new limit config⟩
  obtain ⟨hrun, hanswers⟩ := hnew.run hcalls
  have hledger := hrun.ledger
  refine ⟨hanswers, hrun.store_eq, hledger.follows, hledger.described.unique ?_⟩
  exact Ledger.replay_described hledger.wellFormed hledger.firstId_eq hledger.size_le
    hledger.effective config limit

/-- A run with a refused call, in which a shared attribute is last taken in by a list above the
limit, and stays under the list that has an id. -/
theorem run_nodeLimit_shared :
    let unlimited : Builder := {}
    let limited : Builder := { ledger := { config := { nodeLimit := some 3 } } }
    let calls : List Call := [
      .construct (.expression (.identifier "a")),
      .construct (.expression (.attributeSpec ⟨0⟩ none)),
      .construct (.expression (.identifierLvalue .netConcatenation ⟨0⟩)),
      .construct (.expression (.attributeList ⟨1⟩)),
      .construct (.expression (.attributeList ⟨1⟩)),
      .extend (.attributeSpec ⟨3⟩ ⟨1⟩)]
    Call.releaseAll ∉ calls ∧ unlimited.linkLog calls = [(1, 2), (2, 3), (2, 4), (2, 4)] ∧
      LimitSpec 3 0 {} (unlimited.run calls) (limited.run calls) (unlimited.linkLog calls) :=
  ⟨by simp, by decide, run_nodeLimit {} {} 3 _ (by simp)⟩

end Builder

end VerilogTree
