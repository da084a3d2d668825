import VerilogTree.Proofs.Ledger.Lookup

/-!
# Links of a ledger

A link moves one child to the end of one list of children and leaves all else as it was. Linking
several children is moving those that can be moved, one after the other, up to the first child of
a released tree.
-/

namespace VerilogTree.Ledger

/-! ## What links leave alone -/

/-- The second ledger differs from the first in parents and children at most. -/
structure LinksOnly (l l' : Ledger) : Prop where
  config : l'.config = l.config
  firstId : l'.firstId = l.firstId
  size : l'.size = l.size
  entry_id : ∀ x, (l'.entry? x).map Entry.id = (l.entry? x).map Entry.id
  node : ∀ x, l'.node? x = l.node? x

namespace LinksOnly

variable {l l' l'' : Ledger}

theorem refl (l : Ledger) : LinksOnly l l := ⟨rfl, rfl, rfl, fun _ => rfl, fun _ => rfl⟩

theorem trans (h : LinksOnly l l') (h' : LinksOnly l' l'') : LinksOnly l l'' :=
  ⟨h'.config.trans h.config, h'.firstId.trans h.firstId, h'.size.trans h.size,
    fun x => (h'.entry_id x).trans (h.entry_id x), fun x => (h'.node x).trans (h.node x)⟩

theorem modify (l : Ledger) (id : Nat) {f : Entry → Entry} (hid : ∀ e, (f e).id = e.id)
    (hnode : ∀ e, (f e).node = e.node) : LinksOnly l (l.modify id f) := by
  refine ⟨config_modify .., firstId_modify .., size_modify .., ?_, ?_⟩
  · intro x
    rw [entry?_modify]
    split
    · simp [Function.comp_def, hid]
    · rfl
  · intro x
    simp only [node?, entry?_modify]
    split
    · cases l.entry? x <;> simp [hnode]
    · rfl

theorem isLive (h : LinksOnly l l') (id : Nat) : l'.isLive id = l.isLive id := by
  rw [Bool.eq_iff_iff, isLive_iff, isLive_iff, h.firstId, h.size]

theorem isReleased (h : LinksOnly l l') (id : Nat) : l'.isReleased id = l.isReleased id := by
  simp [Ledger.isReleased, h.firstId]

end LinksOnly

/-! ## Moving one child -/

/-- The ledger with a child taken out of the list of its parent. -/
def detach (l : Ledger) (child : Nat) : Ledger :=
  match l.parent? child with
  | none => l
  | some former => l.modify former fun e => { e with children := e.children.filter (· != child) }

theorem moveUnder_eq (l : Ledger) (child parent : Nat) :
    l.moveUnder child parent =
      ((l.detach child).modify child fun e => { e with parent := some parent }).modify parent
        fun e => { e with children := e.children ++ [child] } :=
  rfl

theorem detach_linksOnly (l : Ledger) (child : Nat) : LinksOnly l (l.detach child) := by
  unfold detach
  split
  · exact .refl l
  · exact .modify l _ (fun _ => rfl) (fun _ => rfl)

theorem moveUnder_linksOnly (l : Ledger) (child parent : Nat) :
    LinksOnly l (l.moveUnder child parent) := by
  rw [moveUnder_eq]
  refine (detach_linksOnly l child).trans
    (.trans (.modify _ child ?_ ?_) (.modify _ parent ?_ ?_)) <;>
    intro e <;> rfl

theorem parent?_detach (l : Ledger) (child x : Nat) :
    (l.detach child).parent? x = l.parent? x := by
  unfold detach
  split
  · rfl
  · simp only [parent?, entry?_modify]
    split
    · cases l.entry? x <;> rfl
    · rfl

theorem childIds_detach (l : Ledger) (child x : Nat) :
    (l.detach child).childIds x =
      if l.parent? child = some x then (l.childIds x).filter (· != child) else l.childIds x := by
  unfold detach
  split
  · rename_i h
    simp [h]
  · rename_i former h
    simp only [childIds, entry?_modify, h, Option.some.injEq]
    by_cases hx : x = former
    · subst x
      cases l.entry? former <;> simp
    · simp [hx, Ne.symm hx]

theorem parent?_moveUnder {l : Ledger} {child : Nat} (hchild : l.isLive child = true)
    (parent x : Nat) :
    (l.moveUnder child parent).parent? x = if x = child then some parent else l.parent? x := by
  have hdetached := parent?_detach l child x
  have hlive : (l.detach child).isLive x = l.isLive x := (detach_linksOnly l child).isLive x
  rw [moveUnder_eq]
  simp only [parent?, entry?_modify] at hdetached ⊢
  by_cases hx : x = child
  · subst x
    obtain ⟨e, he⟩ := exists_entry_of_isLive (hlive.trans hchild)
    by_cases hp : child = parent <;> simp [he, hp]
    subst hp
    simp [he]
  · by_cases hp : x = parent
    · subst x
      simp only [hx, if_true, if_false, ← hdetached]
      cases Ledger.entry? (l.detach child) parent <;> rfl
    · simp [hx, hp, hdetached]

theorem childIds_moveUnder {l : Ledger} {parent : Nat} (hparent : l.isLive parent = true)
    (child x : Nat) :
    (l.moveUnder child parent).childIds x =
      (l.detach child).childIds x ++ if x = parent then [child] else [] := by
  have hlive : (l.detach child).isLive x = l.isLive x := (detach_linksOnly l child).isLive x
  rw [moveUnder_eq]
  simp only [childIds, entry?_modify]
  by_cases hx : x = parent
  · subst x
    obtain ⟨e, he⟩ := exists_entry_of_isLive (hlive.trans hparent)
    by_cases hc : parent = child <;> simp [he, hc]
    subst hc
    simp [he]
  · by_cases hc : x = child
    · subst x
      cases Ledger.entry? (l.detach child) child <;> simp [hx]
    · simp [hx, hc]

/-! ## Well-formed ledgers -/

/-- The invariant of every ledger that is reached from a new one. Ids are not zero, entries and
nodes are found under their own ids, and the two records of a link agree: an id stands in the list
of a parent, once, exactly when that is its parent. -/
structure WellFormed (l : Ledger) : Prop where
  firstId_pos : 0 < l.firstId
  entry_id : ∀ {x e}, l.entry? x = some e → e.id = x
  node_id : ∀ {x node}, l.node? x = some node → node.id = x
  mem_childIds : ∀ {c p}, c ∈ l.childIds p ↔ l.parent? c = some p
  childIds_nodup : ∀ p, (l.childIds p).Nodup

theorem wellFormed_new (config : LedgerConfig) : WellFormed { config } := by
  constructor <;> simp [node?, parent?, childIds]

theorem WellFormed.grown {l : Ledger} (h : l.WellFormed) : l.grown.WellFormed := by
  refine ⟨h.firstId_pos, ?_, ?_, ?_, ?_⟩
  · intro x e he
    rw [entry?_grown] at he
    split at he
    · rename_i hx
      rw [hx, ← Option.some.inj he]
    · exact h.entry_id he
  · intro x node hnode
    exact h.node_id (node?_grown l x ▸ hnode)
  · intro c p
    rw [childIds_grown, parent?_grown]
    exact h.mem_childIds
  · intro p
    rw [childIds_grown]
    exact h.childIds_nodup p

/-- Entries keep their own ids under a change that keeps the ids of all entries. -/
theorem WellFormed.entry_id_of_map_eq {l l' : Ledger} (h : l.WellFormed)
    (hmap : ∀ x, (l'.entry? x).map Entry.id = (l.entry? x).map Entry.id) {x : Nat} {e : Entry}
    (he : l'.entry? x = some e) : e.id = x := by
  have hid := hmap x
  rw [he, Option.map_some, eq_comm, Option.map_eq_some_iff] at hid
  obtain ⟨e', he', hid⟩ := hid
  rw [← hid]
  exact h.entry_id he'

theorem WellFormed.withNode {l : Ledger} (h : l.WellFormed) {node : NodeRef}
    (hlive : l.isLive node.id = true) : (l.withNode node).WellFormed := by
  refine ⟨by simpa using h.firstId_pos, h.entry_id_of_map_eq (entry_id_withNode l node), ?_, ?_, ?_⟩
  · intro x found hfound
    rw [node?_withNode hlive] at hfound
    split at hfound
    · rename_i hx
      rw [hx, ← Option.some.inj hfound]
    · exact h.node_id hfound
  · intro c p
    rw [childIds_withNode, parent?_withNode]
    exact h.mem_childIds
  · intro p
    rw [childIds_withNode]
    exact h.childIds_nodup p

theorem WellFormed.releaseAll {l : Ledger} (h : l.WellFormed) : l.releaseAll.WellFormed := by
  have hpos := firstId_releaseAll_pos h.firstId_pos
  constructor <;> simp [node?, parent?, childIds, hpos]

theorem WellFormed.isLive_zero {l : Ledger} (h : l.WellFormed) : l.isLive 0 = false := by
  rw [← Bool.not_eq_true, isLive_iff]
  have := h.firstId_pos
  omega

theorem WellFormed.ne_zero_of_node? {l : Ledger} (h : l.WellFormed) {id : Nat} {node : NodeRef}
    (hnode : l.node? id = some node) : id ≠ 0 := by
  rintro rfl
  obtain ⟨e, he, -⟩ := Option.bind_eq_some_iff.mp hnode
  have hlive := isLive_of_eq_some he
  rw [h.isLive_zero] at hlive
  cases hlive

theorem WellFormed.mem_nodes {l : Ledger} (h : l.WellFormed) {node : NodeRef} :
    node ∈ l.nodes ↔ l.node? node.id = some node := by
  simp only [nodes, List.mem_filterMap]
  constructor
  · rintro ⟨e, he, hnode⟩
    obtain ⟨i, hi⟩ := List.mem_iff_getElem?.mp he
    rw [Array.getElem?_toList] at hi
    have hfound : l.node? (l.firstId + i) = some node := by
      rw [node?, entry?_add, hi]
      exact hnode
    rwa [h.node_id hfound]
  · intro hnode
    obtain ⟨e, he, hrecorded⟩ := Option.bind_eq_some_iff.mp hnode
    unfold entry? at he
    split at he
    · exact ⟨e, Array.mem_toList_iff.mpr (Array.mem_of_getElem? he), hrecorded⟩
    · cases he

theorem WellFormed.nodes_increasing {l : Ledger} (h : l.WellFormed) :
    l.nodes.Pairwise fun r r' => r.id < r'.id := by
  have hid : ∀ i e r, l.entries[i]? = some e → e.node = some r → r.id = l.firstId + i := by
    intro i e r he hr
    apply h.node_id
    rw [node?, entry?_add, he]
    exact hr
  rw [nodes, List.pairwise_filterMap, List.pairwise_iff_getElem]
  intro i j hi hj hlt r hr r' hr'
  rw [hid i _ r (by simp) hr, hid j _ r' (by simp) hr']
  omega

/-- A well-formed ledger lists a child nowhere but under its parent. -/
theorem WellFormed.childIds_detach {l : Ledger} (h : l.WellFormed) (child x : Nat) :
    (l.detach child).childIds x = (l.childIds x).filter (· != child) := by
  rw [Ledger.childIds_detach]
  split
  · rfl
  · rename_i hp
    have hnot : child ∉ l.childIds x := fun hc => hp (h.mem_childIds.mp hc)
    symm
    apply List.filter_eq_self.mpr
    intro c hc
    simp only [bne_iff_ne, ne_eq]
    rintro rfl
    exact hnot hc

/-- Does a link between two ids, neither of them released, change anything? -/
def effective (l : Ledger) (child parent : Nat) : Bool :=
  child != parent && l.isLive child && l.isLive parent

theorem effective_iff (l : Ledger) (child parent : Nat) :
    l.effective child parent = true ↔
      child ≠ parent ∧ l.isLive child = true ∧ l.isLive parent = true := by
  simp [effective, and_assoc]

theorem WellFormed.moveUnder {l : Ledger} (h : l.WellFormed) {child parent : Nat}
    (hlink : l.effective child parent = true) : (l.moveUnder child parent).WellFormed := by
  obtain ⟨hne, hchild, hparent⟩ := (l.effective_iff child parent).mp hlink
  have hframe := moveUnder_linksOnly l child parent
  refine ⟨hframe.firstId ▸ h.firstId_pos, h.entry_id_of_map_eq hframe.entry_id, ?_, ?_, ?_⟩
  · intro x node hnode
    exact h.node_id (hframe.node x ▸ hnode)
  · intro c p
    rw [childIds_moveUnder hparent, h.childIds_detach, parent?_moveUnder hchild, List.mem_append,
      List.mem_filter, h.mem_childIds]
    by_cases hc : c = child
    · subst c
      by_cases hp : p = parent
      · simp [hp]
      · simp [hp, Ne.symm hp]
    · by_cases hp : p = parent <;> simp [hp, hc]
  · intro p
    rw [childIds_moveUnder hparent, h.childIds_detach]
    have hnodup := (h.childIds_nodup p).filter (· != child)
    split
    · refine List.nodup_append.mpr ⟨hnodup, by simp, ?_⟩
      intro c hc d hd
      simp only [List.mem_singleton] at hd
      simpa [hd] using (List.mem_filter.mp hc).2
    · rw [List.append_nil]
      exact hnodup

/-! ## Linking -/

theorem link_of_released {l : Ledger} {child parent : Nat}
    (h : (l.isReleased child || l.isReleased parent) = true) :
    l.link child parent = .error (.releasedLink child parent) := by
  rw [link, if_pos h]

theorem link_of_not_released {l : Ledger} {child parent : Nat}
    (h : (l.isReleased child || l.isReleased parent) = false) :
    l.link child parent =
      .ok (if l.effective child parent then l.moveUnder child parent else l) := by
  rw [link, if_neg (by simp [h])]
  by_cases heff : l.effective child parent = true
  · obtain ⟨hne, hchild, hparent⟩ := (l.effective_iff child parent).mp heff
    simp [heff, hne, hchild, hparent]
  · have hcond : (child = parent || !l.isLive parent || !l.isLive child) = true := by
      simp only [effective, Bool.and_eq_true, bne_iff_ne, ne_eq, not_and, Bool.not_eq_true] at heff
      by_cases hne : child = parent
      · simp [hne]
      · cases hchild : l.isLive child <;> simp_all
    rw [if_pos hcond, if_neg heff]

/-- The links made when children are linked one after the other: those that have an effect, up to
the first id of a released tree. -/
def linksMade (l : Ledger) (parent : Nat) (children : List Nat) : List (Nat × Nat) :=
  ((children.takeWhile fun c => !(l.isReleased c || l.isReleased parent)).filter
    fun c => l.effective c parent).map fun c => (c, parent)

theorem linksMade_cons (l : Ledger) (parent child : Nat) (rest : List Nat) :
    l.linksMade parent (child :: rest) =
      if l.isReleased child || l.isReleased parent then []
      else if l.effective child parent then (child, parent) :: l.linksMade parent rest
      else l.linksMade parent rest := by
  by_cases hreleased : (l.isReleased child || l.isReleased parent) = true
  · rw [if_pos hreleased, linksMade, List.takeWhile_cons_of_neg (by simp [hreleased])]
    rfl
  · rw [if_neg hreleased, linksMade, List.takeWhile_cons_of_pos (by simp [hreleased]),
      List.filter_cons]
    split <;> rfl

/-- Moves one child after the other. -/
def relink (l : Ledger) (links : List (Nat × Nat)) : Ledger :=
  links.foldl (fun l link => l.moveUnder link.1 link.2) l

theorem relink_linksOnly (l : Ledger) (links : List (Nat × Nat)) :
    LinksOnly l (l.relink links) := by
  induction links generalizing l with
  | nil => exact .refl l
  | cons link links ih => exact (moveUnder_linksOnly l link.1 link.2).trans (ih _)

theorem LinksOnly.effective {l l' : Ledger} (h : LinksOnly l l') (child parent : Nat) :
    l'.effective child parent = l.effective child parent := by
  simp [Ledger.effective, h.isLive]

theorem LinksOnly.linksMade {l l' : Ledger} (h : LinksOnly l l') (parent : Nat)
    (children : List Nat) : l'.linksMade parent children = l.linksMade parent children := by
  simp [Ledger.linksMade, h.isReleased, h.effective]

/-- Moving a child does not take the effect from the links after it. -/
theorem effective_of_mem_tail {l : Ledger} {link : Nat × Nat} {links : List (Nat × Nat)}
    (heff : ∀ other ∈ link :: links, l.effective other.1 other.2 = true) :
    ∀ other ∈ links, (l.moveUnder link.1 link.2).effective other.1 other.2 = true := by
  intro other hother
  rw [(moveUnder_linksOnly l link.1 link.2).effective]
  exact heff other (by simp [hother])

/-- Which links are made depends on the ledger before the first of them only. -/
theorem linkAll_fst (l : Ledger) (parent : Nat) (children : List Nat) :
    (l.linkAll parent children).1 = l.relink (l.linksMade parent children) := by
  induction children generalizing l with
  | nil => rfl
  | cons child rest ih =>
      by_cases hreleased : (l.isReleased child || l.isReleased parent) = true
      · rw [linkAll, link_of_released hreleased, linksMade_cons, if_pos hreleased]
        rfl
      · have hok := Bool.eq_false_iff.mpr hreleased
        rw [linkAll, link_of_not_released hok, linksMade_cons, if_neg hreleased]
        simp only [ih]
        by_cases heff : l.effective child parent = true
        · simp only [if_pos heff, (moveUnder_linksOnly l child parent).linksMade]
          rfl
        · simp only [if_neg heff]

/-- Linking is refused at the first id of a released tree, and only there. -/
theorem linkAll_snd (l : Ledger) (parent : Nat) (children : List Nat) :
    (l.linkAll parent children).2 =
      match children.find? fun c => l.isReleased c || l.isReleased parent with
      | none => .ok ()
      | some c => .error (.releasedLink c parent) := by
  induction children generalizing l with
  | nil => rfl
  | cons child rest ih =>
      by_cases hreleased : (l.isReleased child || l.isReleased parent) = true
      · simp [linkAll, link_of_released hreleased, hreleased]
      · have hok := Bool.eq_false_iff.mpr hreleased
        rw [linkAll, link_of_not_released hok, List.find?_cons_of_neg (by simp [hok])]
        simp only [ih]
        by_cases heff : l.effective child parent = true
        · simp only [if_pos heff, (moveUnder_linksOnly l child parent).isReleased]
        · simp only [if_neg heff]

theorem linkAll_eq_error {l : Ledger} {parent : Nat} {children : List Nat} {misuse : Misuse}
    (h : (l.linkAll parent children).2 = .error misuse) :
    ∃ child ∈ children, misuse = .releasedLink child parent := by
  rw [linkAll_snd] at h
  split at h
  · cases h
  · rename_i child hfound
    cases h
    exact ⟨child, List.mem_of_find?_eq_some hfound, rfl⟩

/-- Links that are all made have no end in a released tree. -/
theorem isReleased_of_linkAll_eq_ok {l : Ledger} {parent : Nat} {children : List Nat}
    (h : (l.linkAll parent children).2 = .ok ()) :
    ∀ c ∈ children, (l.isReleased c || l.isReleased parent) = false := by
  rw [linkAll_snd] at h
  split at h
  · rename_i hnone
    intro c hc
    simpa using List.find?_eq_none.mp hnone c hc
  · cases h

theorem linkAll_eq_ok {l : Ledger} {parent : Nat} {children : List Nat}
    (hparent : l.isReleased parent = false) (hchildren : ∀ c ∈ children, l.isReleased c = false) :
    (l.linkAll parent children).2 = .ok () := by
  have hnone : (children.find? fun c => l.isReleased c || l.isReleased parent) = none := by
    apply List.find?_eq_none.mpr
    intro c hc
    simp [hchildren c hc, hparent]
  rw [linkAll_snd, hnone]

theorem linkAll_linksOnly (l : Ledger) (parent : Nat) (children : List Nat) :
    LinksOnly l (l.linkAll parent children).1 :=
  linkAll_fst l parent children ▸ relink_linksOnly l _

/-- Children of no released tree all come under the parent, as far as they can be linked. -/
theorem parent?_linkAll {l : Ledger} {parent : Nat} {children : List Nat}
    (hparent : l.isReleased parent = false) (hchildren : ∀ c ∈ children, l.isReleased c = false)
    (x : Nat) :
    (l.linkAll parent children).1.parent? x =
      if x ∈ children ∧ l.effective x parent = true then some parent else l.parent? x := by
  induction children generalizing l with
  | nil => simp [linkAll]
  | cons child rest ih =>
      have hok : (l.isReleased child || l.isReleased parent) = false := by
        simp [hparent, hchildren child (by simp)]
      have hrest : ∀ c ∈ rest, l.isReleased c = false := fun c hc => hchildren c (by simp [hc])
      rw [linkAll, link_of_not_released hok]
      by_cases heff : l.effective child parent = true
      · have hframe := moveUnder_linksOnly l child parent
        have hlive := ((l.effective_iff child parent).mp heff).2.1
        simp only [if_pos heff]
        rw [ih ((hframe.isReleased _).trans hparent)
          fun c hc => (hframe.isReleased c).trans (hrest c hc)]
        simp only [hframe.effective, parent?_moveUnder hlive, List.mem_cons]
        by_cases hx : x = child
        · subst hx
          simp [heff]
        · simp [hx]
      · simp only [if_neg heff]
        rw [ih hparent hrest]
        by_cases hx : x = child
        · subst hx
          simp [heff]
        · simp [hx]

theorem mem_linksMade {l : Ledger} {parent : Nat} {children : List Nat} {link : Nat × Nat}
    (h : link ∈ l.linksMade parent children) :
    link.1 ∈ children ∧ link.2 = parent ∧ l.effective link.1 link.2 = true := by
  simp only [linksMade, List.mem_map, List.mem_filter] at h
  obtain ⟨c, ⟨hc, heff⟩, rfl⟩ := h
  exact ⟨List.takeWhile_subset _ hc, rfl, heff⟩

theorem WellFormed.relink {l : Ledger} (h : l.WellFormed) (links : List (Nat × Nat))
    (heff : ∀ link ∈ links, l.effective link.1 link.2 = true) : (l.relink links).WellFormed := by
  induction links generalizing l with
  | nil => exact h
  | cons link links ih =>
      exact ih (h.moveUnder (heff link (by simp))) (effective_of_mem_tail heff)

theorem WellFormed.linkAll {l : Ledger} (h : l.WellFormed) (parent : Nat) (children : List Nat) :
    (l.linkAll parent children).1.WellFormed := by
  rw [linkAll_fst]
  exact h.relink _ fun link hlink => (mem_linksMade hlink).2.2

/-- Nothing comes under a parent that is not live. -/
theorem linkAll_of_not_isLive {l : Ledger} {parent : Nat} (h : l.isLive parent = false)
    (children : List Nat) : (l.linkAll parent children).1 = l := by
  have hnone : l.linksMade parent children = [] := by
    apply List.eq_nil_iff_forall_not_mem.mpr
    intro link hlink
    obtain ⟨-, hparent, heff⟩ := mem_linksMade hlink
    have hlive := ((l.effective_iff _ _).mp heff).2.2
    rw [hparent, h] at hlive
    cases hlive
  rw [linkAll_fst, hnone]
  rfl

/-! ## Refusals -/

/-- The first id of a released tree in a list is `c` and stands at position `j`. -/
structure FirstReleased (l : Ledger) (ids : List Nat) (j c : Nat) : Prop where
  getElem_eq : ids[j]? = some c
  released : l.isReleased c = true
  earlier : ∀ d ∈ ids.take j, l.isReleased d = false

theorem exists_firstReleased {l : Ledger} {ids : List Nat}
    (h : ∃ c ∈ ids, l.isReleased c = true) : ∃ j c, l.FirstReleased ids j c := by
  induction ids with
  | nil => simp at h
  | cons d rest ih =>
      cases hd : l.isReleased d with
      | true => exact ⟨0, d, rfl, hd, by simp⟩
      | false =>
          have hrest : ∃ c ∈ rest, l.isReleased c = true := by simpa [hd] using h
          obtain ⟨j, c, hfirst⟩ := ih hrest
          refine ⟨j + 1, c, hfirst.getElem_eq, hfirst.released, ?_⟩
          simpa [hd] using hfirst.earlier

theorem linkAll_append {l : Ledger} {parent : Nat} {first : List Nat}
    (h : (l.linkAll parent first).2 = .ok ()) (rest : List Nat) :
    l.linkAll parent (first ++ rest) = (l.linkAll parent first).1.linkAll parent rest := by
  induction first generalizing l with
  | nil => rfl
  | cons c first ih =>
      cases hlink : l.link c parent with
      | error misuse =>
          simp only [linkAll, hlink] at h
          cases h
      | ok linked =>
          simp only [linkAll, hlink] at h
          simp only [List.cons_append, linkAll, hlink]
          exact ih h

/-- The children before the first one of a released tree are linked, and no other is. -/
theorem linkAll_of_firstReleased {l : Ledger} {parent : Nat} {ids : List Nat} {j c : Nat}
    (hparent : l.isReleased parent = false) (h : l.FirstReleased ids j c) :
    l.linkAll parent (ids.take j) = ((l.linkAll parent ids).1, .ok ()) ∧
      (l.linkAll parent ids).2 = .error (.releasedLink c parent) := by
  have hok : (l.linkAll parent (ids.take j)).2 = .ok () := linkAll_eq_ok hparent h.earlier
  have hsplit : ids = ids.take j ++ c :: ids.drop (j + 1) := by
    obtain ⟨hj, rfl⟩ := List.getElem?_eq_some_iff.mp h.getElem_eq
    rw [← List.drop_eq_getElem_cons hj, List.take_append_drop]
  have hrefused : (l.linkAll parent (ids.take j)).1.link c parent =
      .error (.releasedLink c parent) := by
    apply link_of_released
    rw [(linkAll_linksOnly l parent (ids.take j)).isReleased, h.released, Bool.true_or]
  have hall : l.linkAll parent ids =
      ((l.linkAll parent (ids.take j)).1, .error (.releasedLink c parent)) := calc
    l.linkAll parent ids
    _ = l.linkAll parent (ids.take j ++ c :: ids.drop (j + 1)) := by rw [← hsplit]
    _ = (l.linkAll parent (ids.take j)).1.linkAll parent (c :: ids.drop (j + 1)) :=
      linkAll_append hok _
    _ = _ := by rw [linkAll, hrefused]
  rw [hall]
  exact ⟨Prod.ext rfl hok, rfl⟩

end VerilogTree.Ledger
