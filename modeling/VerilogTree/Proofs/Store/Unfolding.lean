import Mathlib.Data.Finset.Card
import Mathlib.Logic.Relation
import VerilogTree.Proofs.Builder.History
import VerilogTree.Proofs.Node.Faithful
import VerilogTree.Store.Equality

/-!
# Nodes written out as trees

Nodes share their parts. Written out, a node is a tree in which every part stands in full wherever
it is used. A node can be written out if nothing below it comes back to itself, and then two nodes
are equal just if their trees are the same, however much they share.
-/

namespace VerilogTree

open Relation (ReflTransGen TransGen)

/-- A node written out: its kind, its id and its fields, with trees in the places of handles. -/
inductive Tree where
  | node (kind : Kind) (id : Nat) (fields : List (String × Shape Tree))

/-! ## Shapes with trees in them -/

namespace Shape

variable {α β : Type}

mutual

/-- What is put in the place of a handle matters for the handles of a shape only. -/
theorem bind_congr {f g : α → Shape β} : (a : Shape α) → (∀ x ∈ a.leaves, f x = g x) →
    a.bind f = a.bind g
  | .absent, _ => rfl
  | .flag _, _ => rfl
  | .number _, _ => rfl
  | .word _, _ => rfl
  | .node x, h => h x (List.mem_singleton.mpr rfl)
  | .list items, h => congrArg list (bindList_congr items h)
  | .record fields, h => congrArg record (bindFields_congr fields h)

theorem bindList_congr {f g : α → Shape β} : (items : List (Shape α)) →
    (∀ x ∈ leavesOfList items, f x = g x) → bindList f items = bindList g items
  | [], _ => rfl
  | item :: rest, h => by
      rw [bindList, bindList, bind_congr item fun x hx => h x (List.mem_append_left _ hx),
        bindList_congr rest fun x hx => h x (List.mem_append_right _ hx)]

theorem bindFields_congr {f g : α → Shape β} : (fields : List (String × Shape α)) →
    (∀ x ∈ leavesOfFields fields, f x = g x) → bindFields f fields = bindFields g fields
  | [], _ => rfl
  | (_, value) :: rest, h => by
      rw [bindFields, bindFields, bind_congr value fun x hx => h x (List.mem_append_left _ hx),
        bindFields_congr rest fun x hx => h x (List.mem_append_right _ hx)]

end

mutual

theorem bind_node : (a : Shape α) → a.bind node = a
  | .absent => rfl
  | .flag _ => rfl
  | .number _ => rfl
  | .word _ => rfl
  | .node _ => rfl
  | .list items => congrArg list (bindList_node items)
  | .record fields => congrArg record (bindFields_node fields)

theorem bindList_node : (items : List (Shape α)) → bindList node items = items
  | [] => rfl
  | item :: rest => by rw [bindList, bind_node item, bindList_node rest]

theorem bindFields_node : (fields : List (String × Shape α)) → bindFields node fields = fields
  | [] => rfl
  | (_, value) :: rest => by rw [bindFields, bind_node value, bindFields_node rest]

end

theorem length_bindList (f : α → Shape β) (items : List (Shape α)) :
    (bindList f items).length = items.length := by
  induction items with
  | nil => rfl
  | cons item rest ih => rw [bindList, List.length_cons, ih, List.length_cons]

mutual

/-- Two shapes agree just if they become the same when their handles are replaced, provided that two
handles agree just if they are replaced by the same. -/
theorem agree_iff {same : α → α → Bool} {f g : α → β} : (a b : Shape α) →
    (∀ x ∈ a.leaves, ∀ y ∈ b.leaves, (same x y = true ↔ f x = g y)) →
    (a.agree same b = true ↔ a.bind (fun x => node (f x)) = b.bind fun y => node (g y))
  | .absent, b, _ => by cases b <;> simp [agree, bind]
  | .flag _, b, _ => by cases b <;> simp [agree, bind]
  | .number _, b, _ => by cases b <;> simp [agree, bind]
  | .word _, b, _ => by cases b <;> simp [agree, bind]
  | .node x, b, h => by
      cases b with
      | node y => simpa [agree, bind] using h x (by simp [leaves]) y (by simp [leaves])
      | _ => simp [agree, bind]
  | .list as, b, h => by
      cases b with
      | list bs =>
          have hitems := agreeList_iff as bs h
          simp only [agree, bind, Bool.and_eq_true, beq_iff_eq, list.injEq, hitems,
            and_iff_right_iff_imp]
          intro heq
          simpa only [length_bindList] using congrArg List.length heq
      | _ => simp [agree, bind]
  | .record as, b, h => by
      cases b with
      | record bs => simpa [agree, bind] using agreeFields_iff as bs h
      | _ => simp [agree, bind]

theorem agreeList_iff {same : α → α → Bool} {f g : α → β} : (as bs : List (Shape α)) →
    (∀ x ∈ leavesOfList as, ∀ y ∈ leavesOfList bs, (same x y = true ↔ f x = g y)) →
    (agreeList same as bs = true ↔
      bindList (fun x => node (f x)) as = bindList (fun y => node (g y)) bs)
  | [], [], _ => by simp [agreeList, bindList]
  | [], _ :: _, _ => by simp [agreeList, bindList]
  | _ :: _, [], _ => by simp [agreeList, bindList]
  | a :: as, b :: bs, h => by
      have hitem := agree_iff a b fun x hx y hy =>
        h x (List.mem_append_left _ hx) y (List.mem_append_left _ hy)
      have hrest := agreeList_iff as bs fun x hx y hy =>
        h x (List.mem_append_right _ hx) y (List.mem_append_right _ hy)
      simp [agreeList, bindList, hitem, hrest]

theorem agreeFields_iff {same : α → α → Bool} {f g : α → β} :
    (as bs : List (String × Shape α)) →
    (∀ x ∈ leavesOfFields as, ∀ y ∈ leavesOfFields bs, (same x y = true ↔ f x = g y)) →
    (agreeFields same as bs = true ↔
      bindFields (fun x => node (f x)) as = bindFields (fun y => node (g y)) bs)
  | [], [], _ => by simp [agreeFields, bindFields]
  | [], _ :: _, _ => by simp [agreeFields, bindFields]
  | _ :: _, [], _ => by simp [agreeFields, bindFields]
  | (m, a) :: as, (n, b) :: bs, h => by
      have hvalue := agree_iff a b fun x hx y hy =>
        h x (List.mem_append_left _ hx) y (List.mem_append_left _ hy)
      have hrest := agreeFields_iff as bs fun x hx y hy =>
        h x (List.mem_append_right _ hx) y (List.mem_append_right _ hy)
      simp [agreeFields, bindFields, hvalue, hrest]

end

end Shape

/-- Are kind, id and fields the same, if nodes in the fields are compared by `same`? -/
def Node.agree (same : AnyHandle → AnyHandle → Bool) (m n : Node) : Bool :=
  m.kind == n.kind && m.id == n.id && Shape.agreeFields same m.body.fields n.body.fields

/-- If the nodes in the fields are compared by their handles, nothing is left out but the cut of a
list. -/
theorem Node.agree_beq_iff (m n : Node) :
    m.agree (· == ·) n = true ↔ m.id = n.id ∧ m.body.recut = n.body.recut := by
  have hfields := Shape.agreeFields_iff (f := fun x => x) (g := fun x => x) m.body.fields
    n.body.fields fun x _ y _ => beq_iff_eq (a := x) (b := y)
  change _ ↔ Shape.bindFields Shape.node _ = Shape.bindFields Shape.node _ at hfields
  rw [Shape.bindFields_node, Shape.bindFields_node] at hfields
  rw [Node.agree, Bool.and_eq_true, Bool.and_eq_true, beq_iff_eq, beq_iff_eq, hfields,
    Body.recut_eq_iff, and_comm (a := m.kind = n.kind), and_assoc]
  rfl

namespace Store

/-- Are there nodes behind two handles that agree? -/
def sameContent (s : Store) (same : AnyHandle → AnyHandle → Bool) (a b : AnyHandle) : Bool :=
  match s.node? a.slot, s.node? b.slot with
  | some m, some n => m.agree same n
  | _, _ => false

variable {s : Store}

theorem sameContent_of_node? {same : AnyHandle → AnyHandle → Bool} {a b : AnyHandle} {m n : Node}
    (hm : s.node? a.slot = some m) (hn : s.node? b.slot = some n) :
    s.sameContent same a b = m.agree same n := by
  rw [sameContent, hm, hn]

theorem equalWithin_succ (s : Store) (levels : Nat) (a b : AnyHandle) :
    s.equalWithin (levels + 1) a b =
      (a.slot == b.slot || s.sameContent (s.equalWithin levels) a b) := rfl

/-! ## What lies below a node -/

/-- The node at one position stores a handle to the node at the other. -/
def Refers (s : Store) (i j : Nat) : Prop := ∃ x ∈ s.storedAt i, x.slot = j

/-- Everything that can be reached from a position is there, and nothing of it can be reached from
itself. -/
structure AcyclicBelow (s : Store) (i : Nat) : Prop where
  present : ∀ j, ReflTransGen s.Refers i j → j < s.size
  loop_free : ∀ j, ReflTransGen s.Refers i j → ¬ TransGen s.Refers j j

theorem AcyclicBelow.of_refers {i j : Nat} (h : s.AcyclicBelow i) (hij : s.Refers i j) :
    s.AcyclicBelow j where
  present k hk := h.present k (.head hij hk)
  loop_free k hk := h.loop_free k (.head hij hk)

theorem AcyclicBelow.exists_node {i : Nat} (h : s.AcyclicBelow i) : ∃ n, s.node? i = some n :=
  ⟨_, Array.getElem?_eq_getElem (h.present i .refl)⟩

open Classical in
/-- The positions of nodes that can be reached from a position. -/
noncomputable def reach (s : Store) (i : Nat) : Finset Nat :=
  (Finset.range s.size).filter (ReflTransGen s.Refers i)

theorem mem_reach {i j : Nat} : j ∈ s.reach i ↔ j < s.size ∧ ReflTransGen s.Refers i j := by
  simp [reach]

theorem card_reach_le (s : Store) (i : Nat) : (s.reach i).card ≤ s.size := by
  have hsub : s.reach i ⊆ Finset.range s.size := fun j hj =>
    Finset.mem_range.mpr (mem_reach.mp hj).1
  simpa using Finset.card_le_card hsub

/-- There is less below a part than below the node. -/
theorem AcyclicBelow.card_reach_lt {i j : Nat} (h : s.AcyclicBelow i) (hij : s.Refers i j) :
    (s.reach j).card < (s.reach i).card := by
  apply Finset.card_lt_card
  refine Finset.ssubset_iff_of_subset ?_ |>.mpr ⟨i, ?_, ?_⟩
  · intro k hk
    obtain ⟨hsize, hreach⟩ := mem_reach.mp hk
    exact mem_reach.mpr ⟨hsize, .head hij hreach⟩
  · exact mem_reach.mpr ⟨h.present i .refl, .refl⟩
  · intro hi
    exact h.loop_free i .refl (.head' hij (mem_reach.mp hi).2)

/-! ## Writing a node out -/

/-- The node at a position, written out, is a tree. -/
inductive Unfolds (s : Store) : Nat → Tree → Prop
  | node {i : Nat} {n : Node} {part : AnyHandle → Tree} (hnode : s.node? i = some n)
      (hparts : ∀ x ∈ n.body.stored, Unfolds s x.slot (part x)) :
      Unfolds s i (.node n.kind n.id (Shape.bindFields (fun x => .node (part x)) n.body.fields))

theorem refers_of_mem_stored {i : Nat} {n : Node} (hnode : s.node? i = some n) {x : AnyHandle}
    (hx : x ∈ n.body.stored) : s.Refers i x.slot := by
  refine ⟨x, ?_, rfl⟩
  simpa [storedAt, body?, hnode] using hx

theorem AcyclicBelow.exists_unfolds {i : Nat} (h : s.AcyclicBelow i) : ∃ t, s.Unfolds i t := by
  -- By induction on how much lies below the position.
  induction hcard : (s.reach i).card using Nat.strongRecOn generalizing i with
  | ind card ih =>
      obtain ⟨n, hnode⟩ := h.exists_node
      have hparts : ∀ x : AnyHandle, ∃ t, x ∈ n.body.stored → s.Unfolds x.slot t := by
        intro x
        by_cases hx : x ∈ n.body.stored
        · have hrefers := refers_of_mem_stored hnode hx
          obtain ⟨t, ht⟩ := ih _ (hcard ▸ h.card_reach_lt hrefers) (h.of_refers hrefers) rfl
          exact ⟨t, fun _ => ht⟩
        · exact ⟨.node n.kind n.id [], fun hmem => (hx hmem).elim⟩
      choose part hpart using hparts
      exact ⟨_, .node hnode hpart⟩

theorem Unfolds.unique {i : Nat} {t u : Tree} (ht : s.Unfolds i t) (hu : s.Unfolds i u) :
    t = u := by
  induction ht generalizing u with
  | node hnode _ ih =>
      cases hu with
      | node hnode' hparts' =>
          cases hnode.symm.trans hnode'
          rw [Shape.bindFields_congr _ fun x hx => congrArg Shape.node (ih x hx (hparts' x hx))]

/-- A node that stands at two positions is written out in the same way at both. -/
theorem Unfolds.congr {i j : Nat} {t : Tree} (ht : s.Unfolds i t) (h : s.node? i = s.node? j) :
    s.Unfolds j t := by
  obtain ⟨hnode, hparts⟩ := ht
  exact .node (h.symm.trans hnode) hparts

theorem Unfolds.exists_node {i : Nat} {t : Tree} (ht : s.Unfolds i t) :
    ∃ n, s.node? i = some n := by
  obtain ⟨hnode, _⟩ := ht
  exact ⟨_, hnode⟩

/-! ## Equality is equality of trees -/

/-- Nodes whose fields are compared by `same` agree just if their trees are the same, provided that
`same` holds of two parts just if theirs are. -/
theorem Unfolds.agree_iff {same : AnyHandle → AnyHandle → Bool} {i j : Nat} {m n : Node}
    {t u : Tree} (ht : s.Unfolds i t) (hu : s.Unfolds j u) (hm : s.node? i = some m)
    (hn : s.node? j = some n)
    (hsame : ∀ x ∈ m.body.stored, ∀ y ∈ n.body.stored, ∀ v w, s.Unfolds x.slot v →
      s.Unfolds y.slot w → (same x y = true ↔ v = w)) :
    m.agree same n = true ↔ t = u := by
  obtain ⟨hm', hparts⟩ := ht
  obtain ⟨hn', hparts'⟩ := hu
  cases hm.symm.trans hm'
  cases hn.symm.trans hn'
  have hfields := Shape.agreeFields_iff m.body.fields n.body.fields fun x hx y hy =>
    hsame x hx y hy _ _ (hparts x hx) (hparts' y hy)
  simp [Node.agree, hfields, and_assoc]

theorem equalWithin_iff {levels : Nat} {a b : AnyHandle} {t u : Tree} (ha : s.AcyclicBelow a.slot)
    (hlevels : (s.reach a.slot).card ≤ levels) (ht : s.Unfolds a.slot t)
    (hu : s.Unfolds b.slot u) : s.equalWithin levels a b = true ↔ t = u := by
  induction levels generalizing a b t u with
  | zero =>
      -- The position itself is below it, so that there are levels.
      have hmem := mem_reach.mpr ⟨ha.present a.slot .refl, .refl⟩
      exact absurd hlevels (by simpa using Finset.ne_empty_of_mem hmem)
  | succ levels ih =>
      obtain ⟨m, hm⟩ := ha.exists_node
      obtain ⟨n, hn⟩ := hu.exists_node
      have hcontent : m.agree (s.equalWithin levels) n = true ↔ t = u := by
        refine ht.agree_iff hu hm hn fun x hx y hy v w hv hw => ?_
        have hrefers := refers_of_mem_stored hm hx
        have hless := ha.card_reach_lt hrefers
        exact ih (ha.of_refers hrefers) (by omega) hv hw
      have hshortcut : a.slot = b.slot → t = u := fun hslot => (hslot ▸ ht).unique hu
      rw [equalWithin_succ, Bool.or_eq_true, beq_iff_eq, sameContent_of_node? hm hn, hcontent]
      exact or_iff_right_of_imp hshortcut

/-- Two nodes are equal just if their trees are the same. -/
theorem equal_iff {a b : AnyHandle} {t u : Tree} (ha : s.AcyclicBelow a.slot)
    (ht : s.Unfolds a.slot t) (hu : s.Unfolds b.slot u) : s.equal a b = true ↔ t = u := by
  have hcard := s.card_reach_le a.slot
  have hsquare := Nat.le_mul_self s.size
  exact equalWithin_iff ha (by omega) ht hu

/-- So they are if they are compared by their fields alone, without asking first whether they are
one node. -/
theorem sameContent_iff {a b : AnyHandle} {t u : Tree} (ha : s.AcyclicBelow a.slot)
    (ht : s.Unfolds a.slot t) (hu : s.Unfolds b.slot u) :
    s.sameContent s.equal a b = true ↔ t = u := by
  obtain ⟨m, hm⟩ := ha.exists_node
  obtain ⟨n, hn⟩ := hu.exists_node
  rw [sameContent_of_node? hm hn]
  refine ht.agree_iff hu hm hn fun x hx y hy v w hv hw => ?_
  exact equal_iff (ha.of_refers (refers_of_mem_stored hm hx)) hv hw

theorem sameContent_eq_equal {a b : AnyHandle} (ha : s.AcyclicBelow a.slot)
    (hb : s.AcyclicBelow b.slot) : s.sameContent s.equal a b = s.equal a b := by
  obtain ⟨t, ht⟩ := ha.exists_unfolds
  obtain ⟨u, hu⟩ := hb.exists_unfolds
  rw [Bool.eq_iff_iff, sameContent_iff ha ht hu, equal_iff ha ht hu]

theorem equal_eq {a b : AnyHandle} (ha : s.AcyclicBelow a.slot) (hb : s.AcyclicBelow b.slot) :
    s.equal a b = (a.slot == b.slot || s.sameContent s.equal a b) := by
  have hshortcut : a.slot = b.slot → s.equal a b = true := by
    intro hslot
    rw [equal, equalWithin_succ, hslot, beq_self_eq_true, Bool.true_or]
  rw [sameContent_eq_equal ha hb, Bool.eq_iff_iff, Bool.or_eq_true, beq_iff_eq]
  exact (or_iff_right_of_imp hshortcut).symm

/-- Nodes with different ids are not equal, whatever lies below them. -/
theorem equal_eq_false_of_id_ne {a b : AnyHandle} {m n : Node} (hm : s.node? a.slot = some m)
    (hn : s.node? b.slot = some n) (hid : m.id ≠ n.id) :
    s.equal a b = false ∧ s.sameContent s.equal a b = false := by
  have hslot : a.slot ≠ b.slot := by
    intro hslot
    rw [hslot, hn] at hm
    exact hid (congrArg Node.id (Option.some.inj hm)).symm
  have hcontent : ∀ same, s.sameContent same a b = false := by
    intro same
    simp [sameContent_of_node? hm hn, Node.agree, hid]
  refine ⟨?_, hcontent _⟩
  rw [equal, equalWithin_succ, hcontent, Bool.or_false, beq_eq_false_iff_ne]
  exact hslot

/-- Equality is an equivalence of the nodes that can be written out. -/
theorem equivalence_equal (s : Store) :
    Equivalence fun a b : { x : AnyHandle // s.AcyclicBelow x.slot } => s.equal a b = true where
  refl a := by
    obtain ⟨t, ht⟩ := a.2.exists_unfolds
    exact (equal_iff a.2 ht ht).mpr rfl
  symm := by
    intro a b hab
    obtain ⟨t, ht⟩ := a.2.exists_unfolds
    obtain ⟨u, hu⟩ := b.2.exists_unfolds
    exact (equal_iff b.2 hu ht).mpr ((equal_iff a.2 ht hu).mp hab).symm
  trans := by
    intro a b c hab hbc
    obtain ⟨t, ht⟩ := a.2.exists_unfolds
    obtain ⟨u, hu⟩ := b.2.exists_unfolds
    obtain ⟨v, hv⟩ := c.2.exists_unfolds
    have htu := (equal_iff a.2 ht hu).mp hab
    have huv := (equal_iff b.2 hu hv).mp hbc
    exact (equal_iff a.2 ht hv).mpr (htu.trans huv)

end Store

end VerilogTree
