import VerilogTree.Proofs.Builder.Coherence
import VerilogTree.Proofs.Builder.LastId
import VerilogTree.Proofs.Builder.ListHistory
import VerilogTree.Proofs.Store.Unfolding

/-!
# Equality in runs

A new node stores older nodes only, so no cycle comes about when nodes are made. Only an extension
could close one, with an item below which the extended node lies. In runs without such extensions
every node can be written out as a tree, and equality is equality of trees. Two nodes of one builder
with ids are not equal, whatever was released in between, unless both have the last id of all. That
one id is granted again after a release, and then nodes with it can be equal.
-/

namespace VerilogTree

open Relation (ReflTransGen TransGen)

/-! ## Stores without cycles -/

section NewEdges

variable {α : Type} {r r' : α → α → Prop} {t : α}

/-- New edges out of one place open no new way to it. -/
theorem reflTransGen_of_new_edges (hnew : ∀ i j, r' i j → r i j ∨ i = t) {i : α}
    (h : ReflTransGen r' i t) : ReflTransGen r i t := by
  induction h using ReflTransGen.head_induction_on with
  | refl => exact .refl
  | head hij _ ih =>
      rcases hnew _ _ hij with hold | rfl
      · exact .head hold ih
      · exact .refl

/-- A way with new edges goes through the place that they start from. -/
theorem transGen_of_new_edges (hnew : ∀ i j, r' i j → r i j ∨ i = t ∧ ¬ ReflTransGen r j t)
    {i j : α} (h : TransGen r' i j) : TransGen r i j ∨
      ReflTransGen r' i t ∧ ∃ k, ¬ ReflTransGen r k t ∧ ReflTransGen r' k j := by
  induction h with
  | single hij =>
      rcases hnew _ _ hij with hold | ⟨rfl, haway⟩
      · exact .inl (.single hold)
      · exact .inr ⟨.refl, _, haway, .refl⟩
  | tail hij hjk ih =>
      rcases ih with hold | ⟨hit, k, haway, hkj⟩
      · rcases hnew _ _ hjk with hedge | ⟨rfl, haway⟩
        · exact .inl (hold.tail hedge)
        · exact .inr ⟨hij.to_reflTransGen, _, haway, .refl⟩
      · exact .inr ⟨hit, k, haway, hkj.tail hjk⟩

theorem loop_free_of_new_edges (hold : ∀ i, ¬ TransGen r i i)
    (hnew : ∀ i j, r' i j → r i j ∨ i = t ∧ ¬ ReflTransGen r j t) (i : α) :
    ¬ TransGen r' i i := by
  intro hloop
  rcases transGen_of_new_edges hnew hloop with hloop | ⟨hit, k, haway, hki⟩
  · exact hold i hloop
  · have hweak : ∀ i j, r' i j → r i j ∨ i = t := fun i j hij => (hnew i j hij).imp_right And.left
    exact haway (reflTransGen_of_new_edges hweak (hki.trans hit))

end NewEdges

namespace Store

variable {s : Store}

/-- All that is stored is there, and nothing can be reached from itself. -/
structure Grounded (s : Store) : Prop where
  present : ∀ i j, s.Refers i j → j < s.size
  loop_free : ∀ i, ¬ TransGen s.Refers i i

theorem grounded_new : Grounded {} where
  present i j h := by
    obtain ⟨x, hx, -⟩ := h
    cases hx
  loop_free i h := by
    obtain ⟨j, ⟨x, hx, -⟩, -⟩ := TransGen.head'_iff.mp h
    cases hx

theorem Grounded.lt_size_of_reach (h : s.Grounded) {i j : Nat} (hi : i < s.size)
    (hij : ReflTransGen s.Refers i j) : j < s.size := by
  cases hij with
  | refl => exact hi
  | tail _ hlast => exact h.present _ _ hlast

theorem Grounded.acyclicBelow (h : s.Grounded) {i : Nat} (hi : i < s.size) : s.AcyclicBelow i where
  present _ hij := h.lt_size_of_reach hi hij
  loop_free j _ := h.loop_free j

theorem refers_add {node : Node} {i j : Nat} (h : (s.add node).Refers i j) :
    s.Refers i j ∨ i = s.size ∧ ∃ x ∈ node.body.stored, x.slot = j := by
  obtain ⟨x, hx, hslot⟩ := h
  rw [storedAt, body?_add] at hx
  split at hx
  · rename_i hi
    exact .inr ⟨hi, x, hx, hslot⟩
  · exact .inl ⟨x, hx, hslot⟩

/-- A new node cannot be reached from those that it stores, which are older. -/
theorem Grounded.add (h : s.Grounded) {node : Node}
    (hnode : ∀ x ∈ node.body.stored, x.slot < s.size) : (s.add node).Grounded where
  present i j hij := by
    rw [size_add]
    rcases refers_add hij with hold | ⟨-, x, hx, rfl⟩
    · exact Nat.lt_succ_of_lt (h.present i j hold)
    · exact Nat.lt_succ_of_lt (hnode x hx)
  loop_free := by
    refine loop_free_of_new_edges (t := s.size) h.loop_free fun i j hij => ?_
    rcases refers_add hij with hold | ⟨hi, x, hx, rfl⟩
    · exact .inl hold
    · exact .inr ⟨hi, fun hreach => Nat.lt_irrefl _ (h.lt_size_of_reach (hnode x hx) hreach)⟩

theorem refers_modify {e : Extension} (htarget : s.Has e.target) {i j : Nat}
    (h : (s.modify e.target.slot e.apply).Refers i j) :
    s.Refers i j ∨ i = e.target.slot ∧ ∃ x ∈ e.links, x.slot = j := by
  obtain ⟨x, hx, hslot⟩ := h
  obtain ⟨body, hbody, hkind⟩ := htarget
  rw [storedAt, body?_modify] at hx
  split at hx
  · rename_i hi
    subst hi
    rw [hbody] at hx
    rcases (Extension.mem_stored_apply hkind x).mp hx with hadded | hold
    · exact .inr ⟨rfl, x, hadded, hslot⟩
    · exact .inl ⟨x, by rwa [storedAt, hbody], hslot⟩
  · exact .inl ⟨x, hx, hslot⟩

theorem Grounded.modify (h : s.Grounded) {e : Extension} (htarget : s.Has e.target)
    (hlinks : ∀ x ∈ e.links, x.slot < s.size)
    (haway : ∀ x ∈ e.links, ¬ ReflTransGen s.Refers x.slot e.target.slot) :
    (s.modify e.target.slot e.apply).Grounded where
  present i j hij := by
    rw [size_modify]
    rcases refers_modify htarget hij with hold | ⟨-, x, hx, rfl⟩
    · exact h.present i j hold
    · exact hlinks x hx
  loop_free := by
    refine loop_free_of_new_edges (t := e.target.slot) h.loop_free fun i j hij => ?_
    rcases refers_modify htarget hij with hold | ⟨hi, x, hx, rfl⟩
    · exact .inl hold
    · exact .inr ⟨hi, haway x hx⟩

theorem Grounded.copy (h : s.Grounded) (x : AnyHandle) : (s.copy x).1.Grounded := by
  unfold Store.copy
  split
  · exact h
  · rename_i node hnode
    exact h.add fun y hy => h.present _ _ (refers_of_mem_stored hnode hy)

theorem lt_size_of_mem_storedAt {i : Nat} {x : AnyHandle} (h : x ∈ s.storedAt i) : i < s.size := by
  refine Nat.lt_of_not_le fun hle => ?_
  rw [storedAt, body?, node?_eq_none_of_size_le hle] at h
  cases h

/-- Where every node stores older nodes, no node is reached from an older one. -/
theorem not_reach_of_lt (hdown : ∀ k < s.size, ∀ x ∈ s.storedAt k, x.slot < k) {i j : Nat}
    (hij : i < j) : ¬ ReflTransGen s.Refers i j := by
  intro hreach
  have hle : j ≤ i := by
    clear hij
    induction hreach with
    | refl => exact Nat.le_refl _
    | tail _ hlast ih =>
        obtain ⟨x, hx, rfl⟩ := hlast
        exact Nat.le_trans (Nat.le_of_lt (hdown _ (lt_size_of_mem_storedAt hx) x hx)) ih
  omega

theorem Has.lt_size {x : AnyHandle} (h : s.Has x) : x.slot < s.size := by
  obtain ⟨body, hbody, -⟩ := h
  obtain ⟨node, hnode, -⟩ := Option.map_eq_some_iff.mp hbody
  exact lt_size_of_node? hnode

end Store

/-! ## Runs without cycles -/

/-- No item is added to a node that can be reached from it. -/
def Call.AvoidsLoops (s : Store) : Call → Prop
  | .extend e => ∀ x ∈ e.links, ¬ ReflTransGen s.Refers x.slot e.target.slot
  | _ => True

theorem Builder.grounded_call {b : Builder} (h : b.store.Grounded) {c : Call}
    (hargs : ∀ x ∈ c.arguments, b.store.Has x) (havoids : c.AvoidsLoops b.store) :
    (b.call c).1.store.Grounded := by
  cases c with
  | construct p =>
      obtain ⟨_, -, heq⟩ | ⟨_, _, -, -, heq⟩ | ⟨body, hbody, -, heq⟩ := b.construct_cases p
      · rw [call, heq]
        exact h
      · rw [call, heq]
        change b.granted.store.Grounded
        rwa [granted_store]
      · rw [call, heq]
        refine h.add fun x hx => (hargs x ?_).lt_size
        have hlink := (Body.mem_stored_iff (Production.defaultListed_body hbody) x).mp hx
        exact Production.links_subset_arguments hbody hlink
  | extend e =>
      obtain ⟨-, heq⟩ | ⟨_, -, -, heq⟩ | ⟨-, -, heq⟩ := b.extend_cases e
      · rw [call, heq]
        exact h
      · rw [call, heq]
        exact h
      · rw [call, heq]
        exact h.modify (hargs _ (List.mem_cons_self ..))
          (fun x hx => (hargs x (List.mem_cons_of_mem _ hx)).lt_size) havoids
  | releaseAll => exact h

def Task.AvoidsLoops (s : Store) : Task → Prop
  | .call _ c => c.AvoidsLoops s
  | _ => True

namespace Workshop

/-- No extension in a run adds an item from which the extended node can be reached. -/
def AvoidsLoops (w : Workshop) : List Task → Prop
  | [] => True
  | task :: rest => task.AvoidsLoops w.store ∧ (w.perform task).AvoidsLoops rest

theorem grounded_perform {w : Workshop} (hsound : w.Sound) (h : w.store.Grounded) {task : Task}
    (hargs : ∀ x ∈ task.arguments, x ∈ w.returned)
    (havoids : task.AvoidsLoops w.store) : (w.perform task).store.Grounded := by
  have hhas : ∀ x ∈ task.arguments, w.store.Has x := fun x hx => hsound.has x (hargs x hx)
  have hstep := w.performed task
  generalize w.perform task = after at hstep ⊢
  cases hstep with
  | opened config => exact h
  | absent => exact h
  | called c hb =>
      rw [← store_eq_of_builder? hb] at h hhas havoids
      exact Builder.grounded_call h hhas havoids
  | copied node => exact h.copy node

theorem grounded_run {w : Workshop} (hsound : w.Sound) (h : w.store.Grounded) {tasks : List Task}
    (htasks : w.UsesReturned tasks) (havoids : w.AvoidsLoops tasks) :
    (w.run tasks).store.Grounded := by
  induction tasks generalizing w with
  | nil => exact h
  | cons task rest ih =>
      exact ih (hsound.perform htasks.1) (grounded_perform hsound h htasks.1 havoids.1) htasks.2
        havoids.2

theorem usesReturned_of_arguments {w : Workshop} {tasks : List Task}
    (h : ∀ task ∈ tasks, task.arguments = []) : w.UsesReturned tasks := by
  induction tasks generalizing w with
  | nil => trivial
  | cons task rest ih =>
      obtain ⟨htask, hrest⟩ := List.forall_mem_cons.mp h
      exact ⟨by simp [htask], ih hrest⟩

/-- A task that is given no handles is no extension. -/
theorem avoidsLoops_of_arguments {w : Workshop} {tasks : List Task}
    (h : ∀ task ∈ tasks, task.arguments = []) : w.AvoidsLoops tasks := by
  induction tasks generalizing w with
  | nil => trivial
  | cons task rest ih =>
      obtain ⟨htask, hrest⟩ := List.forall_mem_cons.mp h
      refine ⟨?_, ih hrest⟩
      cases task with
      | call i c =>
          cases c with
          | extend e => cases htask
          | _ => trivial
      | _ => trivial

/-! ## Ids tell the nodes of a builder apart -/

/-- Writes down the node that a constructor call returns. -/
def noteMade (b : Builder) (made : List NodeRef) (c : Call) : List NodeRef :=
  match c, (b.call c).2 with
  | .construct _, .ok (some node) => node :: made
  | _, _ => made

/-- The nodes returned by the constructor calls of builder `i`, the latest first. -/
def made (i : Nat) (tasks : List Task) : List NodeRef := follow noteMade {} i [] tasks

end Workshop

/-- Two nodes have different ids, unless they have none or the last one of all. The last id is the
one that a ledger may grant again after a release, when there are no more. -/
def Apart (x y : NodeRef) : Prop := x.id = y.id → x.id = 0 ∨ x.id = Ledger.maxId

theorem Apart.symm {x y : NodeRef} (h : Apart x y) : Apart y x := by
  intro hsame
  rw [hsame]
  exact h hsame.symm

/-- The ids of nodes are behind the next one to be granted, and they are apart. -/
structure Ledger.Numbers (l : Ledger) (made : List NodeRef) : Prop where
  le_maxId : ∀ x ∈ made, x.id ≤ maxId
  behind : ∀ x ∈ made, x.id = 0 ∨ x.id < l.nextId ∨ x.id = maxId
  apart : made.Pairwise Apart

namespace Ledger.Numbers

variable {l l' : Ledger} {made : List NodeRef}

theorem of_grows (h : l.Numbers made) (hgrows : Grows l l') : l'.Numbers made where
  le_maxId := h.le_maxId
  behind x hx := by
    have hsize := hgrows.size_le
    have hbehind := h.behind x hx
    rw [nextId] at hbehind ⊢
    rw [hgrows.firstId]
    omega
  apart := h.apart

theorem releaseAll (h : l.Numbers made) : l.releaseAll.Numbers made where
  le_maxId := h.le_maxId
  behind x hx := by
    have hle := h.le_maxId x hx
    have hbehind := h.behind x hx
    have hnext : l.releaseAll.nextId = min l.nextId maxId := rfl
    rw [hnext]
    omega
  apart := h.apart

theorem cons (h : l.Numbers made) {x : NodeRef} (hle : x.id ≤ maxId)
    (hbehind : x.id = 0 ∨ x.id < l.nextId ∨ x.id = maxId) (hapart : ∀ y ∈ made, Apart x y) :
    l.Numbers (x :: made) where
  le_maxId := List.forall_mem_cons.mpr ⟨hle, h.le_maxId⟩
  behind := List.forall_mem_cons.mpr ⟨hbehind, h.behind⟩
  apart := List.pairwise_cons.mpr ⟨hapart, h.apart⟩

end Ledger.Numbers

namespace Workshop

theorem numbers_constructed {b : Builder} {made : List NodeRef} (h : b.ledger.Numbers made)
    (body : Body) : (b.constructed body).ledger.Numbers (b.newRef body :: made) := by
  have hgrows := b.constructed_grows body
  by_cases hid : b.newId = 0
  · refine (h.of_grows hgrows).cons ?_ (.inl hid) fun _ _ _ => .inl hid
    exact hid.trans_le (Nat.zero_le _)
  · -- The id is the next one, and of those granted before only the last of all can be the same.
    have hroom := Builder.hasRoom_of_newId hid
    have hnew : (b.newRef body).id = b.ledger.nextId := Builder.newId_of_hasRoom hroom
    have hsize : (b.constructed body).ledger.size = b.ledger.size + 1 := by
      rw [Builder.constructed_size, Builder.granted_of_hasRoom hroom, Ledger.size_grown]
    refine (h.of_grows hgrows).cons (hnew ▸ hroom.2) (.inr (.inl ?_)) fun y hy hsame => ?_
    · rw [hnew, Ledger.nextId, Ledger.nextId, hgrows.firstId, hsize]
      omega
    · have hbehind := h.behind y hy
      omega

theorem numbers_call (b : Builder) (made : List NodeRef) (c : Call) (h : b.ledger.Numbers made) :
    (b.call c).1.ledger.Numbers (noteMade b made c) := by
  cases c with
  | construct p =>
      obtain ⟨_, -, heq⟩ | ⟨body, _, -, -, heq⟩ | ⟨body, -, -, heq⟩ := b.construct_cases p
      · simp only [noteMade, Builder.call, heq]
        exact h
      · simp only [noteMade, Builder.call, heq]
        exact h.of_grows (b.linkedLedger_grows body)
      · simp only [noteMade, Builder.call, heq]
        exact numbers_constructed h body
  | extend e => exact h.of_grows (b.call_grows (by simp))
  | releaseAll => exact h.releaseAll

/-- The nodes that a builder makes are apart, across releases too. -/
theorem pairwise_made (i : Nat) (tasks : List Task) : (made i tasks).Pairwise Apart := by
  have hnew : ∀ config, Ledger.Numbers { config } [] := fun _ => ⟨by simp, by simp, .nil⟩
  have hstart : Follows Ledger.Numbers [] {} i [] := rfl
  have hrun := hstart.run hnew numbers_call tasks
  unfold Follows at hrun
  cases hdesk : (run {} tasks).desks[i]? with
  | none =>
      rw [hdesk] at hrun
      exact (congrArg (List.Pairwise Apart) hrun).mpr .nil
  | some desk =>
      rw [hdesk] at hrun
      exact hrun.apart

/-- Two constructor calls of one builder return nodes that are apart. -/
theorem apart_of_ne {i k l : Nat} {tasks : List Task} {x y : NodeRef} (hkl : k ≠ l)
    (hx : (made i tasks)[k]? = some x) (hy : (made i tasks)[l]? = some y) : Apart x y := by
  obtain ⟨hk, rfl⟩ := List.getElem?_eq_some_iff.mp hx
  obtain ⟨hl, rfl⟩ := List.getElem?_eq_some_iff.mp hy
  have hpairwise := List.pairwise_iff_getElem.mp (pairwise_made i tasks)
  rcases Nat.lt_or_gt_of_ne hkl with hlt | hgt
  · exact hpairwise k l hk hl hlt
  · exact Apart.symm (hpairwise l k hl hk hgt)

theorem mem_followed {w : Workshop} {i : Nat} {made : List NodeRef} {task : Task} {x : NodeRef}
    (h : x ∈ w.followed noteMade i made task) :
    x ∈ made ∨ ∃ p, task = .call i (.construct p) ∧ w.Makes i p x := by
  cases task with
  | newBuilder config => exact .inl h
  | copy node => exact .inl h
  | call j c =>
      simp only [followed] at h
      split at h
      · rename_i hj
        subst hj
        cases hb : w.builder? j with
        | none =>
            rw [hb] at h
            exact .inl h
        | some b =>
            rw [hb, Option.elim_some] at h
            unfold noteMade at h
            split at h
            · rename_i p node hanswer
              rcases List.mem_cons.mp h with rfl | h
              · exact .inr ⟨p, rfl, b, hb, hanswer⟩
              · exact .inl h
            · exact .inl h
      · exact .inl h

theorem node?_follow {w : Workshop} {i : Nat} {made : List NodeRef} {tasks : List Task}
    (h : ∀ x ∈ made, ∃ body, w.store.node? x.slot = some ⟨x.id, body⟩) :
    ∀ x ∈ w.follow noteMade i made tasks, ∃ body,
      (w.run tasks).store.node? x.slot = some ⟨x.id, body⟩ := by
  induction tasks generalizing w made with
  | nil => exact h
  | cons task rest ih =>
      refine ih fun x hx => ?_
      rcases mem_followed hx with hold | ⟨p, rfl, hmakes⟩
      · obtain ⟨body, hnode⟩ := h x hold
        exact ⟨_, node?_perform hnode task⟩
      · obtain ⟨body, -, hnode⟩ := hmakes.node?_perform
        exact ⟨body, hnode⟩

theorem node?_made {i : Nat} {tasks : List Task} {x : NodeRef} (hx : x ∈ made i tasks) :
    ∃ body, (run {} tasks).store.node? x.slot = some ⟨x.id, body⟩ :=
  node?_follow (fun _ hmem => (List.not_mem_nil hmem).elim) x hx

end Workshop

/-! ## The contract of equality -/

/-- What equality is in a store. -/
structure Store.EqualitySpec (s : Store) : Prop where
  /-- A node without cycles below it is written out as one tree. -/
  unfolds : ∀ i, s.AcyclicBelow i → ∃! t, s.Unfolds i t
  /-- Handles are equal if they are the same or if their nodes agree in kind, id and all fields,
  where handles in the fields are compared in the same way. -/
  equal_eq : ∀ a b : AnyHandle, s.AcyclicBelow a.slot → s.AcyclicBelow b.slot →
    s.equal a b = (a.slot == b.slot || s.sameContent s.equal a b)
  /-- Handles are equal just if the trees are. -/
  equal_iff : ∀ (a b : AnyHandle) (t u : Tree), s.AcyclicBelow a.slot → s.AcyclicBelow b.slot →
    s.Unfolds a.slot t → s.Unfolds b.slot u → (s.equal a b = true ↔ t = u)
  /-- Nodes that are compared without their handles are equal just if the trees are. -/
  sameContent_iff : ∀ (a b : AnyHandle) (t u : Tree), s.AcyclicBelow a.slot →
    s.AcyclicBelow b.slot → s.Unfolds a.slot t → s.Unfolds b.slot u →
    (s.sameContent s.equal a b = true ↔ t = u)
  /-- Nothing in a node is left out: with handles as they are, nodes agree just if they are the same
  node, but for the place where a list is cut into two parts. -/
  agree_iff : ∀ m n : Node, m.agree (· == ·) n = true ↔ m.id = n.id ∧ m.body.recut = n.body.recut
  equivalence_equal :
    Equivalence fun a b : { x : AnyHandle // s.AcyclicBelow x.slot } => s.equal a b = true
  equivalence_sameContent :
    Equivalence fun a b : { x : AnyHandle // s.AcyclicBelow x.slot } =>
      s.sameContent s.equal a b = true

/-- What equality is in the state after a run. -/
structure Workshop.EqualitySpec (tasks : List Task) : Prop where
  /-- There are no cycles, unless an extension closes one. -/
  acyclic : UsesReturned {} tasks → AvoidsLoops {} tasks →
    ∀ x ∈ (run {} tasks).returned, (run {} tasks).store.AcyclicBelow x.slot
  /-- Two constructor calls of one builder return nodes that are never equal, if they have ids and
  not both the last one of all. -/
  apart : ∀ (i k l : Nat) (x y : NodeRef), k ≠ l → (made i tasks)[k]? = some x →
    (made i tasks)[l]? = some y → x.id ≠ 0 → ¬ (x.id = Ledger.maxId ∧ y.id = Ledger.maxId) →
    (run {} tasks).store.equal x.toAnyHandle y.toAnyHandle = false ∧
      (run {} tasks).store.sameContent (run {} tasks).store.equal x.toAnyHandle y.toAnyHandle =
        false

theorem Store.equalitySpec (s : Store) : s.EqualitySpec where
  unfolds i hi := by
    obtain ⟨t, ht⟩ := hi.exists_unfolds
    exact ⟨t, ht, fun u hu => hu.unique ht⟩
  equal_eq _ _ ha hb := Store.equal_eq ha hb
  equal_iff _ _ _ _ ha _ ht hu := Store.equal_iff ha ht hu
  sameContent_iff _ _ _ _ ha _ ht hu := Store.sameContent_iff ha ht hu
  agree_iff := Node.agree_beq_iff
  equivalence_equal := s.equivalence_equal
  equivalence_sameContent := by
    have hsame : ∀ a b : { x : AnyHandle // s.AcyclicBelow x.slot },
        s.sameContent s.equal a b = s.equal a b := fun a b => sameContent_eq_equal a.2 b.2
    simpa only [hsame] using s.equivalence_equal

theorem Workshop.equalitySpec (tasks : List Task) : EqualitySpec tasks where
  acyclic hreturned havoids x hx := by
    have hground := grounded_run sound_new Store.grounded_new hreturned havoids
    exact hground.acyclicBelow ((sound_new.run hreturned).has x hx).lt_size
  apart i k l x y hkl hx hy hid hlast := by
    obtain ⟨_, hnode⟩ := node?_made (List.mem_of_getElem? hx)
    obtain ⟨_, hnode'⟩ := node?_made (List.mem_of_getElem? hy)
    refine Store.equal_eq_false_of_id_ne hnode hnode' fun hsame => ?_
    exact (apart_of_ne hkl hx hy hsame).elim hid fun hmax => hlast ⟨hmax, hsame.symm.trans hmax⟩

/-- Equality of nodes is equality of the trees that they are written out as. It compares everything
there is in a node, it is an equivalence, and all nodes of a run can be written out unless an
extension closes a cycle. Nodes of one builder with ids differ, before and after releases, unless
both have the last id of all. -/
theorem node_equality (s : Store) (tasks : List Task) :
    s.EqualitySpec ∧ Workshop.EqualitySpec tasks :=
  ⟨s.equalitySpec, Workshop.equalitySpec tasks⟩

/-- Two lists without ids, each of an attribute twice. One has the same node in both places, the
other has two nodes. Beside them are two names with ids, one of them from before a release. -/
def likeLists : List Task := [
  .newBuilder { nodeLimit := some 0 },
  .newBuilder {},
  .call 0 (.construct (.expression (.identifier "a"))),
  .call 0 (.construct (.expression (.identifier "a"))),
  .call 0 (.construct (.expression (.attributeSpec ⟨0⟩ none))),
  .call 0 (.construct (.expression (.attributeSpec ⟨1⟩ none))),
  .call 0 (.construct (.expression (.attributeList ⟨2⟩))),
  .call 0 (.construct (.expression (.attributeList ⟨3⟩))),
  .call 0 (.extend (.attributeSpec ⟨4⟩ ⟨2⟩)),
  .call 0 (.extend (.attributeSpec ⟨5⟩ ⟨2⟩)),
  .call 1 (.construct (.expression (.identifier "a"))),
  .call 1 .releaseAll,
  .call 1 (.construct (.expression (.identifier "a")))]

theorem avoidsLoops_likeLists : Workshop.AvoidsLoops {} likeLists := by
  have hdown : ∀ n ∈ [8, 9], ∀ k < (Workshop.run {} (likeLists.take n)).store.size,
      ∀ x ∈ (Workshop.run {} (likeLists.take n)).store.storedAt k, x.slot < k := by decide
  refine ⟨trivial, trivial, trivial, trivial, trivial, trivial, trivial, trivial, ?_, ?_, trivial,
    trivial, trivial, trivial⟩
  · intro x hx
    obtain rfl := List.mem_singleton.mp hx
    exact Store.not_reach_of_lt (hdown 8 (by decide)) (by decide)
  · intro x hx
    obtain rfl := List.mem_singleton.mp hx
    exact Store.not_reach_of_lt (hdown 9 (by decide)) (by decide)

theorem node_equality_likeLists :
    let s := (Workshop.run {} likeLists).store
    Workshop.UsesReturned {} likeLists ∧ Workshop.AvoidsLoops {} likeLists ∧
      s.equal ⟨.attributeList, 4⟩ ⟨.attributeList, 5⟩ = true ∧
      (∃ t, s.Unfolds 4 t ∧ s.Unfolds 5 t) ∧
      s.equal ⟨.identifier, 6⟩ ⟨.identifier, 7⟩ = false := by
  intro s
  have hreturned : Workshop.UsesReturned {} likeLists := by decide
  obtain ⟨hspec, hrun⟩ := node_equality s likeLists
  have hacyclic := hrun.acyclic hreturned avoidsLoops_likeLists
  have hfirst : s.AcyclicBelow 4 := hacyclic ⟨.attributeList, 4⟩ (by decide)
  have hsecond : s.AcyclicBelow 5 := hacyclic ⟨.attributeList, 5⟩ (by decide)
  have hequal : s.equal ⟨.attributeList, 4⟩ ⟨.attributeList, 5⟩ = true := by decide
  obtain ⟨t, ht, -⟩ := hspec.unfolds 4 hfirst
  obtain ⟨u, hu, -⟩ := hspec.unfolds 5 hsecond
  obtain rfl := (hspec.equal_iff _ _ t u hfirst hsecond ht hu).mp hequal
  have hapart := hrun.apart 1 1 0 ⟨⟨.identifier, 6⟩, 1⟩ ⟨⟨.identifier, 7⟩, 2⟩ (by decide)
    (by decide) (by decide) (by decide) (by decide)
  exact ⟨hreturned, avoidsLoops_likeLists, hequal, ⟨t, ht, hu⟩, hapart.1⟩

/-! ## The last id is granted again -/

namespace Workshop

theorem noteMade_name {b : Builder} {id slot : Nat} (h : b.Idle id slot) (hmax : id ≤ Ledger.maxId)
    (made : List NodeRef) :
    noteMade b made Builder.nameCall = ⟨⟨.identifier, slot⟩, id⟩ :: made := by
  have hcall := h.call_name hmax
  unfold Builder.nameCall at hcall ⊢
  simp only [noteMade, hcall]

/-- A builder that has come to the last id makes a name, releases it and makes another one. -/
theorem follow_lastId {w : Workshop} {i slot : Nat} {b : Builder} (hb : w.builder? i = some b)
    (h : b.Idle Ledger.maxId slot) (made : List NodeRef) :
    w.follow noteMade i made
        [.call i Builder.nameCall, .call i .releaseAll, .call i Builder.nameCall] =
      ⟨⟨.identifier, slot + 1⟩, Ledger.maxId⟩ :: ⟨⟨.identifier, slot⟩, Ledger.maxId⟩ :: made := by
  have hle := Nat.le_refl Ledger.maxId
  have hmade := builder?_call hb Builder.nameCall
  have hreleased := builder?_call hmade .releaseAll
  have hnext : ((b.call Builder.nameCall).1.call .releaseAll).1.Idle Ledger.maxId (slot + 1) :=
    h.round hle
  simp only [follow, followed_call hb, followed_call hmade, followed_call hreleased]
  rw [noteMade_name hnext hle, noteMade_name h hle]
  rfl

end Workshop

/-- Names in turn until only the last id is left, then the name that gets it, and one more after
that one is released. -/
def lastIdTwice : List Task :=
  .newBuilder {} ::
    (Builder.namesInTurn (Ledger.maxId - 1) ++
      [Builder.nameCall, .releaseAll, Builder.nameCall]).map (.call 0)

theorem arguments_lastIdTwice : ∀ task ∈ lastIdTwice, task.arguments = [] := by
  intro task htask
  rcases List.mem_cons.mp htask with rfl | htask
  · rfl
  · obtain ⟨c, hc, rfl⟩ := List.mem_map.mp htask
    rcases List.mem_append.mp hc with hc | hc
    · exact Builder.arguments_namesInTurn hc
    · simp only [List.mem_cons, List.not_mem_nil, or_false] at hc
      rcases hc with rfl | rfl | rfl <;> rfl

theorem builder?_lastIdTwice :
    ((Workshop.perform {} (.newBuilder {})).run
      ((Builder.namesInTurn (Ledger.maxId - 1)).map (.call 0))).builder? 0 =
        some (({} : Builder).run (Builder.namesInTurn (Ledger.maxId - 1))).1 :=
  Workshop.builder?_run rfl _

theorem made_lastIdTwice : ∃ made, Workshop.made 0 lastIdTwice =
    ⟨⟨.identifier, Ledger.maxId⟩, Ledger.maxId⟩ ::
      ⟨⟨.identifier, Ledger.maxId - 1⟩, Ledger.maxId⟩ :: made := by
  have hmade := Workshop.follow_lastId builder?_lastIdTwice Builder.idle_lastId
  rw [Workshop.made, lastIdTwice, Workshop.follow, List.map_append, Workshop.follow_append]
  exact ⟨_, hmade _⟩

theorem node?_lastIdTwice :
    (Workshop.run {} lastIdTwice).store.node? (Ledger.maxId - 1) =
        some ⟨Ledger.maxId, Builder.nameBody⟩ ∧
      (Workshop.run {} lastIdTwice).store.node? Ledger.maxId =
        some ⟨Ledger.maxId, Builder.nameBody⟩ := by
  have hbuilder := Workshop.builder?_run builder?_lastIdTwice
    [Builder.nameCall, .releaseAll, Builder.nameCall]
  have hrun : Workshop.run {} lastIdTwice =
      ((Workshop.perform {} (.newBuilder {})).run
        ((Builder.namesInTurn (Ledger.maxId - 1)).map (.call 0))).run
          ([Builder.nameCall, .releaseAll, Builder.nameCall].map (.call 0)) := by
    rw [lastIdTwice, Workshop.run, List.foldl_cons, List.map_append, List.foldl_append]
    rfl
  rw [hrun, ← Workshop.store_eq_of_builder? hbuilder]
  exact Builder.idle_lastId.node?_lastId

/-- The last id is granted again after a release: two constructor calls of one builder, without a
cycle anywhere, return nodes with ids that are equal. -/
theorem last_id_equal :
    let s := (Workshop.run {} lastIdTwice).store
    let x : NodeRef := ⟨⟨.identifier, Ledger.maxId - 1⟩, Ledger.maxId⟩
    let y : NodeRef := ⟨⟨.identifier, Ledger.maxId⟩, Ledger.maxId⟩
    Workshop.UsesReturned {} lastIdTwice ∧ Workshop.AvoidsLoops {} lastIdTwice ∧
      (Workshop.made 0 lastIdTwice)[0]? = some y ∧ (Workshop.made 0 lastIdTwice)[1]? = some x ∧
      x.id ≠ 0 ∧ y.id ≠ 0 ∧ s.AcyclicBelow x.slot ∧ s.AcyclicBelow y.slot ∧
      s.equal x.toAnyHandle y.toAnyHandle = true ∧
      s.sameContent s.equal x.toAnyHandle y.toAnyHandle = true := by
  intro s x y
  have hreturned := Workshop.usesReturned_of_arguments (w := {}) arguments_lastIdTwice
  have havoids := Workshop.avoidsLoops_of_arguments (w := {}) arguments_lastIdTwice
  have hground := Workshop.grounded_run Workshop.sound_new Store.grounded_new hreturned havoids
  obtain ⟨hx, hy⟩ := node?_lastIdTwice
  have hacyclic : s.AcyclicBelow x.slot := hground.acyclicBelow (Store.lt_size_of_node? hx)
  have hacyclic' : s.AcyclicBelow y.slot := hground.acyclicBelow (Store.lt_size_of_node? hy)
  -- The two positions have the same node and so the same tree.
  obtain ⟨t, ht⟩ := hacyclic.exists_unfolds
  have ht' : s.Unfolds y.slot t := ht.congr (hx.trans hy.symm)
  obtain ⟨made, hmade⟩ := made_lastIdTwice
  refine ⟨hreturned, havoids, by rw [hmade]; rfl, by rw [hmade]; rfl, by decide, by decide,
    hacyclic, hacyclic', ?_, ?_⟩
  · exact (Store.equal_iff hacyclic ht ht').mpr rfl
  · exact (Store.sameContent_iff hacyclic ht ht').mpr rfl

end VerilogTree
