import VerilogTree.Proofs.Builder.Construction
import VerilogTree.Proofs.Builder.ListHistory
import VerilogTree.Proofs.Builder.Ownership

/-!
# The order of a list and the order of its links

Attributes and items come first in their list and last among the links, and branches come last in
both. Where no handle is passed on twice nothing is ever moved away, so the links of a node that can
grow are told by its fields: those that it was made with, then what its list has gained.
-/

namespace VerilogTree

/-! ## The order of links -/

/-- The handles of a node that can grow, in the order in which they were linked. -/
def Body.linkOrder? : Body → Option (List AnyHandle)
  | .expression (.attributeList attributes) => some (held attributes.toList.reverse)
  | .expression (.concatenation _ count items) => some (held count ++ held items.toList.reverse)
  | .statement (.ifElse branches elseStatement) =>
    match branches.toList with
    | [] => none
    | first :: rest => some (held first ++ held elseStatement ++ held rest)
  | _ => none

/-- What an extension adds is linked last. -/
theorem Extension.linkOrder?_apply {e : Extension} {body : Body}
    (hkind : body.kind = e.target.kind) {order : List AnyHandle}
    (h : body.linkOrder? = some order) : (e.apply body).linkOrder? = some (order ++ e.links) := by
  cases e with
  | attributeSpec list added =>
      obtain ⟨attributes, rfl⟩ := Body.eq_of_kind_attributeList hkind
      cases h
      simp [apply, Body.linkOrder?, held_append, held_list_singleton, links]
  | item concatenation added =>
      obtain ⟨role, count, items, rfl⟩ := Body.eq_of_kind_concatenation hkind
      cases h
      simp [apply, Body.linkOrder?, held_append, held_list_singleton, links]
  | branches chain added =>
      obtain ⟨branches, elseStatement, rfl⟩ := Body.eq_of_kind_ifElse hkind
      cases hlist : branches.toList with
      | nil => simp [Body.linkOrder?, hlist] at h
      | cons first rest =>
          simp only [Body.linkOrder?, hlist, Option.some.injEq] at h
          simp [apply, Body.linkOrder?, hlist, held_append, links, ← h]

/-- The productions whose nodes can grow. -/
inductive Production.Growable : Production → Prop
  | attributeList (first : Handle .attributeSpec) : Growable (.expression (.attributeList first))
  | concatenation (role : ConcatenationRole) (count : Option Expression)
      (first : ConcatenationItem) : Growable (.expression (.concatenation role count first))
  | emptyConcatenation (role : ConcatenationRole) :
      Growable (.expression (.emptyConcatenation role))
  | ifElse (branch : Handle .conditionalStatement) (elseStatement : Option (Handle .statement)) :
      Growable (.statement (.ifElse branch elseStatement))

theorem Production.growable_of_body {s : Store} {p : Production} {body : Body}
    (h : p.body s = .ok body) (hkind : body.kind ∈ Body.growable) : p.Growable := by
  cases p with
  | expression p =>
      obtain ⟨node, hnode, rfl⟩ := exists_of_map_eq_ok h
      cases p with
      | attributeList first => exact .attributeList first
      | concatenation role count first => exact .concatenation role count first
      | emptyConcatenation role => exact .emptyConcatenation role
      | _ =>
          simp only [ExpressionProduction.node] at hnode
          (try split at hnode) <;> cases hnode
          simp [Body.growable, Body.kind, ExpressionNode.kind] at hkind
  | statement p =>
      obtain ⟨node, hnode, rfl⟩ := exists_of_map_eq_ok h
      cases p with
      | ifElse branch elseStatement => exact .ifElse branch elseStatement
      | _ =>
          simp only [StatementProduction.node] at hnode
          (try split at hnode) <;> cases hnode
          simp [Body.growable, Body.kind, StatementNode.kind] at hkind
  | path node =>
      cases h
      cases node <;> simp [Body.growable, Body.kind, PathNode.kind] at hkind
  | timing p =>
      obtain ⟨node, -, rfl⟩ := exists_of_map_eq_ok h
      cases node <;> simp [Body.growable, Body.kind, TimingNode.kind] at hkind
  | primitive p =>
      obtain ⟨node, -, rfl⟩ := exists_of_map_eq_ok h
      cases node <;> simp [Body.growable, Body.kind, PrimitiveNode.kind] at hkind
  | gate p =>
      obtain ⟨node, -, rfl⟩ := exists_of_map_eq_ok h
      cases node <;> simp [Body.growable, Body.kind, GateNode.kind] at hkind
  | design p =>
      cases h
      generalize p.node = node at hkind
      cases node <;> simp [Body.growable, Body.kind, DesignNode.kind] at hkind

/-- A new node that can grow links what it was passed, in that order. -/
theorem Production.Growable.linkOrder? {s : Store} {p : Production} (hp : p.Growable) {body : Body}
    (h : p.body s = .ok body) : body.linkOrder? = some body.links ∧ body.links = p.arguments := by
  cases hp with
  | attributeList first =>
      cases h
      simp [Body.linkOrder?, Body.links, ExpressionNode.links, arguments,
        ExpressionProduction.arguments, held_list_singleton]
  | concatenation role count first =>
      cases h
      simp [Body.linkOrder?, Body.links, ExpressionNode.links, arguments,
        ExpressionProduction.arguments, held_list_singleton]
  | emptyConcatenation role =>
      cases h
      exact ⟨rfl, rfl⟩
  | ifElse branch elseStatement =>
      cases h
      simp [Body.linkOrder?, Body.links, StatementNode.links, arguments,
        StatementProduction.arguments]

/-! ## Linking handles that have no parent yet -/

namespace Builder

variable {b : Builder} {handles : List AnyHandle}

/-- The ids of some handles, those of nodes without an id left out. -/
def ownIds (b : Builder) (handles : List AnyHandle) : List Nat :=
  (b.store.idsOf handles).filter (· ≠ 0)

theorem mem_ownIds {c : Nat} :
    c ∈ b.ownIds handles ↔ ∃ x ∈ handles, b.store.idAt x.slot = c ∧ c ≠ 0 := by
  simp only [ownIds, Store.idsOf, List.mem_filter, List.mem_map, decide_eq_true_eq]
  constructor
  · rintro ⟨⟨x, hx, hid⟩, hc⟩
    exact ⟨x, hx, hid, hc⟩
  · rintro ⟨x, hx, hid, hc⟩
    exact ⟨⟨x, hx, hid⟩, hc⟩

@[simp] theorem ownIds_append (xs ys : List AnyHandle) :
    b.ownIds (xs ++ ys) = b.ownIds xs ++ b.ownIds ys := by
  simp [ownIds, Store.idsOf]

theorem ownIds_nodup (hhandles : ∀ x ∈ handles, b.Owns x) (hnodup : handles.Nodup) :
    (b.ownIds handles).Nodup := by
  rw [ownIds, Store.idsOf, List.filter_map]
  apply (hnodup.filter _).map_on
  intro x hx y hy heq
  simp only [List.mem_filter, Function.comp_apply, decide_eq_true_eq] at hx hy
  exact (hhandles x hx.1).eq_of_idAt_eq (hhandles y hy.1) hx.2 heq

theorem ownIds_congr {after : Builder}
    (hid : ∀ x ∈ handles, after.store.idAt x.slot = b.store.idAt x.slot) :
    after.ownIds handles = b.ownIds handles := by
  rw [ownIds, ownIds, Store.idsOf, Store.idsOf, List.map_congr_left hid]

/-- The nodes that are recorded under the ids of handles are those of the handles. -/
theorem filterMap_ownIds (hhandles : ∀ x ∈ handles, b.Owns x) :
    (b.ownIds handles).filterMap b.ledger.node? =
      (handles.map b.store.ref).filter (fun node => node.id ≠ 0) := by
  induction handles with
  | nil => rfl
  | cons x rest ih =>
      have hrest := ih fun y hy => hhandles y (by simp [hy])
      simp only [ownIds, Store.idsOf] at hrest
      by_cases hid : b.store.idAt x.slot = 0
      · simpa [ownIds, Store.idsOf, Store.ref, hid] using hrest
      · have hnode := (hhandles x (by simp)).node?_idAt hid
        simpa [ownIds, Store.idsOf, Store.ref, hid, hnode] using hrest

/-- Handles that have no parent yet come under a parent behind the children that it has, and no
other list of children changes. -/
theorem childIds_linkAll_of_free {l : Ledger} {parent : Nat} (hl : l.WellFormed)
    (hlive : ∀ {id}, b.ledger.isLive id = true → l.isLive id = true)
    (hparent : parent ≠ 0 → l.isLive parent = true) (hhandles : ∀ x ∈ handles, b.Owns x)
    (hne : parent ∉ b.ownIds handles) (hfree : ∀ c ∈ b.ownIds handles, l.parent? c = none)
    (q : Nat) :
    (l.linkAll parent (b.store.idsOf handles)).1.childIds q =
      l.childIds q ++ if q = parent ∧ parent ≠ 0 then (b.ownIds handles).dedup else [] := by
  by_cases hzero : parent = 0
  · rw [hzero, Ledger.linkAll_of_not_isLive hl.isLive_zero]
    simp
  · have hok : (l.linkAll parent (b.store.idsOf handles)).2 = .ok () :=
      Ledger.linkAll_eq_ok (Ledger.isReleased_eq_false hparent)
        (Owns.isReleased_idsOf hhandles hlive)
    have hmoved : (b.store.idsOf handles).filter (fun c => l.effective c parent) =
        b.ownIds handles := by
      apply List.filter_congr
      intro c hc
      rw [Bool.eq_iff_iff, Ledger.effective_iff, decide_eq_true_eq]
      constructor
      · rintro ⟨-, hc, -⟩ rfl
        rw [hl.isLive_zero] at hc
        cases hc
      · intro hpos
        obtain ⟨x, hx, rfl⟩ := List.mem_map.mp hc
        refine ⟨?_, hlive ((hhandles x hx).isLive_idAt hpos), hparent hzero⟩
        rintro rfl
        exact hne (mem_ownIds.mpr ⟨x, hx, rfl, hpos⟩)
    have hkept : (l.childIds q).filter (fun c => c ∉ b.ownIds handles) = l.childIds q := by
      apply List.filter_eq_self.mpr
      intro c hc
      rw [decide_eq_true_eq]
      intro hmem
      rw [hl.mem_childIds, hfree c hmem] at hc
      cases hc
    rw [hl.childIds_linkAll hok, hmoved, hkept]
    simp [hzero]

/-! ## The children of a node that can grow -/

/-- The children of a recorded node are the handles in its fields, in the order of its links. -/
def InOrder (b : Builder) (id : Nat) (body : Body) : Prop :=
  ∃ order, body.linkOrder? = some order ∧ (∀ x ∈ order, b.Owns x) ∧
    b.ledger.childIds id = b.ownIds order

/-- Every recorded node that can grow has its children in order, and a node with a parent has been
passed on. -/
structure Ordered (b : Builder) (passed : List AnyHandle) : Prop where
  wellFormed : b.ledger.WellFormed
  recorded : ∀ {id ref}, b.ledger.node? id = some ref →
    ∃ body, b.store.node? ref.slot = some ⟨id, body⟩ ∧ body.kind = ref.kind ∧
      (body.kind ∈ Body.growable → b.InOrder id body)
  linked : ∀ {c p}, b.ledger.parent? c = some p → ∃ x ∈ passed, b.ledger.node? c = some ⟨x, c⟩

theorem InOrder.congr {after : Builder} {id : Nat} {body : Body} (h : b.InOrder id body)
    (howns : ∀ {x}, b.Owns x → after.Owns x)
    (hid : ∀ {x}, b.Owns x → after.store.idAt x.slot = b.store.idAt x.slot)
    (hchildren : after.ledger.childIds id = b.ledger.childIds id) : after.InOrder id body := by
  obtain ⟨order, horder, howned, heq⟩ := h
  refine ⟨order, horder, fun x hx => howns (howned x hx), ?_⟩
  rw [hchildren, heq, ownIds_congr fun x hx => hid (howned x hx)]

theorem ordered_new (store : Store) (config : LedgerConfig) :
    Ordered { store, ledger := { config } } [] := by
  refine ⟨Ledger.wellFormed_new config, ?_, ?_⟩ <;> simp [Ledger.node?, Ledger.parent?]

namespace Ordered

variable {passed : List AnyHandle}

theorem mono (o : Ordered b passed) {later : List AnyHandle} (h : passed ⊆ later) :
    Ordered b later := by
  refine ⟨o.wellFormed, o.recorded, ?_⟩
  intro c p hparent
  obtain ⟨x, hx, hnode⟩ := o.linked hparent
  exact ⟨x, h hx, hnode⟩

theorem releaseAll (o : Ordered b passed) : Ordered b.releaseAll passed := by
  refine ⟨o.wellFormed.releaseAll, ?_, ?_⟩ <;>
    simp [Builder.releaseAll, Ledger.node?, Ledger.parent?]

/-- A handle that was never passed on has no parent. -/
theorem parent?_eq_none (o : Ordered b passed) (hhandles : ∀ x ∈ handles, b.Owns x)
    (hnew : ∀ x ∈ handles, x ∉ passed) :
    ∀ c ∈ b.ownIds handles, b.ledger.parent? c = none := by
  intro c hc
  obtain ⟨x, hx, rfl, hid⟩ := mem_ownIds.mp hc
  rw [Option.eq_none_iff_forall_ne_some]
  intro p hparent
  obtain ⟨y, hy, hnode⟩ := o.linked hparent
  rw [(hhandles x hx).node?_idAt hid, Option.some.injEq] at hnode
  obtain rfl : x = y := congrArg NodeRef.toAnyHandle hnode
  exact hnew x hx hy

/-- A step that puts handles under one node gives a parent to those handles and to no others. -/
theorem linked_after (o : Ordered b passed) {after : Builder} {parent : Nat}
    (hafter : after.ledger.WellFormed) (hhandles : ∀ x ∈ handles, b.Owns x)
    (hnodes : ∀ {id ref}, b.ledger.node? id = some ref → after.ledger.node? id = some ref)
    (hchildren : ∀ q, after.ledger.childIds q = b.ledger.childIds q ++
      if q = parent ∧ parent ≠ 0 then (b.ownIds handles).dedup else []) {c p : Nat}
    (hparent : after.ledger.parent? c = some p) :
    ∃ x ∈ passed ++ handles, after.ledger.node? c = some ⟨x, c⟩ := by
  rw [← hafter.mem_childIds, hchildren, List.mem_append] at hparent
  rcases hparent with hold | hnew
  · obtain ⟨x, hx, hnode⟩ := o.linked (o.wellFormed.mem_childIds.mp hold)
    exact ⟨x, by simp [hx], hnodes hnode⟩
  · split at hnew
    · rw [List.mem_dedup, mem_ownIds] at hnew
      obtain ⟨x, hx, rfl, hid⟩ := hnew
      exact ⟨x, by simp [hx], hnodes ((hhandles x hx).node?_idAt hid)⟩
    · simp at hnew

/-! ## Steps -/

theorem childIds_constructed (o : Ordered b passed) {body : Body}
    (hlinks : ∀ x ∈ body.links, b.Owns x) (hnew : ∀ x ∈ body.links, x ∉ passed) (q : Nat) :
    (b.constructed body).ledger.childIds q = b.ledger.childIds q ++
      if q = b.newId ∧ b.newId ≠ 0 then (b.ownIds body.links).dedup else [] := by
  rw [constructed_childIds, linkedLedger, childIds_linkAll_of_free
    (granted_wellFormed o.wellFormed) granted_isLive newId_isLive hlinks, granted_childIds]
  · -- The ids of handles are live, and the id of the new node was not.
    intro hmem
    obtain ⟨x, hx, heq, hid⟩ := mem_ownIds.mp hmem
    have hlive := (hlinks x hx).isLive_idAt (heq ▸ hid)
    rw [heq, isLive_newId o.wellFormed] at hlive
    cases hlive
  · simpa only [granted_parent?] using o.parent?_eq_none hlinks hnew

theorem constructed (o : Ordered b passed) {p : Production} {body : Body}
    (hbody : p.body b.store = .ok body) (hargs : ∀ x ∈ p.arguments, b.Owns x)
    (hnew : ∀ x ∈ p.arguments, x ∉ passed) (hnodup : p.arguments.Nodup) :
    Ordered (b.constructed body) (passed ++ body.links) := by
  have hsub : body.links ⊆ p.arguments := Production.links_subset_arguments hbody
  have hlinks : ∀ x ∈ body.links, b.Owns x := fun x hx => hargs x (hsub hx)
  have hchildren := o.childIds_constructed hlinks fun x hx => hnew x (hsub hx)
  have hafter := constructed_wellFormed o.wellFormed body
  refine ⟨hafter, ?_, o.linked_after hafter hlinks (constructed_node?_of_some · body) hchildren⟩
  intro id ref href
  rw [constructed_node?] at href
  split at href
  · rename_i hid
    obtain rfl := Option.some.inj href
    refine ⟨body, hid.1 ▸ b.constructed_newNode body, rfl, ?_⟩
    intro hkind
    obtain ⟨horder, hargsEq⟩ := (Production.growable_of_body hbody hkind).linkOrder? hbody
    refine ⟨body.links, horder, fun x hx => (hlinks x hx).constructed body, ?_⟩
    have hnone : b.ledger.childIds b.newId = [] := by
      rw [Ledger.childIds, entry?_newId hid.2]
      rfl
    have hdedup := (ownIds_nodup hlinks (hargsEq ▸ hnodup)).dedup
    rw [hchildren, hid.1, if_pos ⟨rfl, hid.2⟩, hnone, List.nil_append, hdedup,
      ownIds_congr fun x hx => (hlinks x hx).idAt_constructed body]
  · rename_i hid
    obtain ⟨old, hnode, hkind, horder⟩ := o.recorded href
    refine ⟨old, ?_, hkind, ?_⟩
    · change (b.store.add _).node? ref.slot = _
      rw [Store.node?_add, if_neg (Nat.ne_of_lt (Store.lt_size_of_node? hnode)), hnode]
    · intro hgrowable
      apply (horder hgrowable).congr (fun hx => hx.constructed body)
        fun hx => hx.idAt_constructed body
      rw [hchildren, if_neg hid, List.append_nil]

theorem childIds_extended (o : Ordered b passed) {e : Extension} (htarget : b.Owns e.target)
    (hlinks : ∀ x ∈ e.links, b.Owns x) (hnew : ∀ x ∈ e.links, x ∉ passed)
    (hself : e.target ∉ e.links) (q : Nat) :
    (b.extended e).ledger.childIds q = b.ledger.childIds q ++
      if q = b.store.idAt e.target.slot ∧ b.store.idAt e.target.slot ≠ 0
      then (b.ownIds e.links).dedup else [] := by
  apply childIds_linkAll_of_free o.wellFormed id htarget.isLive_idAt hlinks
  · intro hmem
    obtain ⟨x, hx, heq, hpos⟩ := mem_ownIds.mp hmem
    exact hself (htarget.eq_of_idAt_eq (hlinks x hx) hpos heq.symm ▸ hx)
  · exact o.parent?_eq_none hlinks hnew

theorem extended (o : Ordered b passed) {e : Extension} (htarget : b.Owns e.target)
    (hlinks : ∀ x ∈ e.links, b.Owns x) (hnew : ∀ x ∈ e.links, x ∉ passed)
    (hnodup : e.links.Nodup) (hself : e.target ∉ e.links) :
    Ordered (b.extended e) (passed ++ e.links) := by
  have hframe := b.extendedLedger_linksOnly e
  have hid : ∀ slot, (b.extended e).store.idAt slot = b.store.idAt slot :=
    fun slot => Store.idAt_modify ..
  have hchildren := o.childIds_extended htarget hlinks hnew hself
  have hafter := extendedLedger_wellFormed o.wellFormed e
  refine ⟨hafter, ?_, o.linked_after hafter hlinks ((hframe.node _).trans ·) hchildren⟩
  intro id ref href
  have hold : b.ledger.node? id = some ref := (hframe.node id).symm.trans href
  have hpos := o.wellFormed.ne_zero_of_node? hold
  obtain ⟨body, hnode, hkind, horder⟩ := o.recorded hold
  have hat : b.store.idAt ref.slot = id := by simp [Store.idAt, hnode]
  by_cases htid : id = b.store.idAt e.target.slot
  · -- The extended node: its children and the order of its links grow by the same handles.
    have htnode := htarget.node?_idAt (htid ▸ hpos)
    rw [← htid, hold, Option.some.injEq] at htnode
    subst htnode
    refine ⟨e.apply body, by simp [Builder.extended, Store.node?_modify, hnode],
      (e.kind_apply body).trans hkind, ?_⟩
    intro hgrowable
    rw [e.kind_apply] at hgrowable
    obtain ⟨order, hlist, howned, heq⟩ := horder hgrowable
    refine ⟨order ++ e.links, Extension.linkOrder?_apply hkind hlist, ?_, ?_⟩
    · intro x hx
      exact ((List.mem_append.mp hx).elim (howned x) (hlinks x)).extended e
    · rw [hchildren, if_pos ⟨htid, htid ▸ hpos⟩, heq, (ownIds_nodup hlinks hnodup).dedup,
        ownIds_congr fun x _ => hid x.slot, ownIds_append]
  · have hslot : ref.slot ≠ e.target.slot := fun hslot => htid (hslot ▸ hat).symm
    refine ⟨body, by simp [Builder.extended, Store.node?_modify, hnode, hslot], hkind, ?_⟩
    intro hgrowable
    apply (horder hgrowable).congr (fun hx => hx.extended e) fun _ => hid _
    rw [hchildren, if_neg fun h => htid h.1, List.append_nil]

end Ordered

end Builder

/-! ## Runs that pass every handle on once -/

/-- The handles that a call is to put under a node. -/
def Call.passed : Call → List AnyHandle
  | .construct p => p.arguments
  | .extend e => e.links
  | .releaseAll => []

/-- The call adds a node to the list of the same node. -/
def Call.AddsToItself : Call → Prop
  | .extend e => e.target ∈ e.links
  | _ => False

instance : DecidablePred Call.AddsToItself
  | .extend e => inferInstanceAs (Decidable (e.target ∈ e.links))
  | .construct _ => .isFalse id
  | .releaseAll => .isFalse id

namespace Builder

/-- Every call of a run is given handles that belong to the builder at that time. -/
def UsesOwned (b : Builder) : List Call → Prop
  | [] => True
  | c :: rest => (∀ x ∈ c.arguments, b.Owns x) ∧ (b.call c).1.UsesOwned rest

instance decidableUsesOwned (b : Builder) : (calls : List Call) → Decidable (b.UsesOwned calls)
  | [] => .isTrue trivial
  | c :: rest =>
    have := decidableUsesOwned (b.call c).1 rest
    inferInstanceAs (Decidable (_ ∧ _))

namespace Ordered

variable {b : Builder} {passed : List AnyHandle}

theorem call (o : Ordered b passed) {c : Call} (howned : ∀ x ∈ c.arguments, b.Owns x)
    (honce : (passed ++ c.passed).Nodup) (hself : ¬ c.AddsToItself) :
    Ordered (b.call c).1 (passed ++ c.passed) := by
  obtain ⟨-, hnodup, hdisjoint⟩ := List.nodup_append.mp honce
  have hnew : ∀ x ∈ c.passed, x ∉ passed := fun x hx hmem => hdisjoint x hmem x hx rfl
  cases c with
  | construct p =>
      cases hbody : p.body b.store with
      | error misuse =>
          rw [Builder.call, construct_of_error hbody]
          exact o.mono (List.subset_append_left _ _)
      | ok body =>
          rw [Builder.call, construct_of_owned hbody howned]
          apply (o.constructed hbody howned hnew hnodup).mono
          exact List.append_subset.mpr ⟨List.subset_append_left _ _, List.Subset.trans
            (Production.links_subset_arguments hbody) (List.subset_append_right _ _)⟩
  | extend e =>
      have htarget : b.Owns e.target := howned _ (by simp [Call.arguments])
      have hlinks : ∀ x ∈ e.links, b.Owns x := fun x hx => howned x (by simp [Call.arguments, hx])
      rw [Builder.call, extend_of_owned htarget hlinks]
      exact o.extended htarget hlinks hnew hnodup hself
  | releaseAll => exact o.releaseAll.mono (List.subset_append_left _ _)

theorem run (o : Ordered b passed) {calls : List Call} (howned : b.UsesOwned calls)
    (honce : (passed ++ calls.flatMap Call.passed).Nodup)
    (hself : ∀ c ∈ calls, ¬ c.AddsToItself) :
    Ordered (b.run calls).1 (passed ++ calls.flatMap Call.passed) := by
  induction calls generalizing b passed with
  | nil =>
      rw [List.flatMap_nil, List.append_nil]
      exact o
  | cons c rest ih =>
      rw [List.flatMap_cons, ← List.append_assoc] at honce ⊢
      have hcall := o.call howned.1 (List.nodup_append.mp honce).1 (hself c (by simp))
      exact ih hcall howned.2 honce fun d hd => hself d (by simp [hd])

/-- The children of a recorded node that can grow, from its fields. -/
theorem children_eq (o : Ordered b passed) {x : NodeRef} (hx : x ∈ b.ledger.nodes)
    (hkind : x.kind ∈ Body.growable) :
    ∃ body order, b.store.body? x.slot = some body ∧ body.kind = x.kind ∧
      body.linkOrder? = some order ∧
      b.ledger.children x.id = (order.map b.store.ref).filter fun node => node.id ≠ 0 := by
  obtain ⟨body, hnode, hbody, horder⟩ := o.recorded (o.wellFormed.mem_nodes.mp hx)
  obtain ⟨order, hlist, howned, heq⟩ := horder (hbody ▸ hkind)
  refine ⟨body, order, by simp [Store.body?, hnode], hbody, hlist, ?_⟩
  rw [Ledger.children_eq_filterMap, heq, filterMap_ownIds howned]

end Ordered

end Builder

/-- How the children of the nodes that can grow stand to their lists, nodes without an id left
out. -/
structure OrderSpec (b : Builder) : Prop where
  /-- The count, then the items from the last to the first. -/
  concatenation : ∀ x ∈ b.ledger.nodes, x.kind = .concatenation →
    ∃ role count items,
      b.store.body? x.slot = some (.expression (.concatenation role count items)) ∧
      b.ledger.children x.id =
        ((held count ++ held items.toList.reverse).map b.store.ref).filter fun node => node.id ≠ 0
  /-- The attributes from the last to the first. -/
  attributeList : ∀ x ∈ b.ledger.nodes, x.kind = .attributeList →
    ∃ attributes, b.store.body? x.slot = some (.expression (.attributeList attributes)) ∧
      b.ledger.children x.id =
        ((held attributes.toList.reverse).map b.store.ref).filter fun node => node.id ≠ 0
  /-- The first branch, then what to do otherwise, then the other branches in order. -/
  ifElse : ∀ x ∈ b.ledger.nodes, x.kind = .ifElse →
    ∃ branches elseStatement first rest,
      b.store.body? x.slot = some (.statement (.ifElse branches elseStatement)) ∧
      branches.toList = first :: rest ∧
      b.ledger.children x.id =
        ((held first ++ held elseStatement ++ held rest).map b.store.ref).filter
          fun node => node.id ≠ 0

theorem Builder.Ordered.orderSpec {b : Builder} {passed : List AnyHandle} (o : Ordered b passed) :
    OrderSpec b where
  concatenation x hx hkind := by
    obtain ⟨body, order, hbody, hsame, horder, hchildren⟩ :=
      o.children_eq hx (by simp [hkind, Body.growable])
    obtain ⟨role, count, items, rfl⟩ := Body.eq_of_kind_concatenation (hsame.trans hkind)
    cases horder
    exact ⟨role, count, items, hbody, hchildren⟩
  attributeList x hx hkind := by
    obtain ⟨body, order, hbody, hsame, horder, hchildren⟩ :=
      o.children_eq hx (by simp [hkind, Body.growable])
    obtain ⟨attributes, rfl⟩ := Body.eq_of_kind_attributeList (hsame.trans hkind)
    cases horder
    exact ⟨attributes, hbody, hchildren⟩
  ifElse x hx hkind := by
    obtain ⟨body, order, hbody, hsame, horder, hchildren⟩ :=
      o.children_eq hx (by simp [hkind, Body.growable])
    obtain ⟨branches, elseStatement, rfl⟩ := Body.eq_of_kind_ifElse (hsame.trans hkind)
    cases hlist : branches.toList with
    | nil => simp [Body.linkOrder?, hlist] at horder
    | cons first rest =>
        simp only [Body.linkOrder?, hlist, Option.some.injEq] at horder
        exact ⟨branches, elseStatement, first, rest, hbody, hlist, horder ▸ hchildren⟩

/-- Whatever is built in a new builder, under any limit and with any releases: if every call is
given handles that belong to the builder, no handle is passed on twice and no node is added to its
own list, then the children of the nodes that can grow are told by their lists. -/
theorem run_order (store : Store) (config : LedgerConfig) (calls : List Call)
    (howned : Builder.UsesOwned { store, ledger := { config } } calls)
    (honce : (calls.flatMap Call.passed).Nodup) (hself : ∀ c ∈ calls, ¬ c.AddsToItself) :
    OrderSpec (Builder.run { store, ledger := { config } } calls).1 :=
  ((Builder.ordered_new store config).run howned honce hself).orderSpec

/-- A concatenation and a chain of branches grow in turns. The limit is reached on the way, so an
item and a branch have no id. -/
def interleavedLists : List Call := [
  .construct (.expression (.stringExpression "count")),
  .construct (.expression (.stringExpression "a")),
  .construct (.expression (.stringExpression "b")),
  .construct (.expression (.concatenation .expression (some ⟨.string, 0⟩)
    (.expression ⟨.string, 1⟩))),
  .construct (.statement (.nullStatement none)),
  .construct (.statement (.nullStatement none)),
  .construct (.statement (.nullStatement none)),
  .construct (.expression (.stringExpression "p")),
  .construct (.expression (.stringExpression "q")),
  .construct (.statement (.conditional ⟨4⟩ ⟨.string, 7⟩)),
  .construct (.statement (.conditional ⟨6⟩ ⟨.string, 8⟩)),
  .construct (.statement (.ifElse ⟨9⟩ (some ⟨5⟩))),
  .construct (.expression (.stringExpression "c")),
  .construct (.statement (.nullStatement none)),
  .construct (.expression (.stringExpression "r")),
  .construct (.statement (.conditional ⟨13⟩ ⟨.string, 14⟩)),
  .extend (.item ⟨3⟩ (.expression ⟨.string, 12⟩)),
  .extend (.branches ⟨11⟩ (some [⟨15⟩, ⟨10⟩])),
  .extend (.item ⟨3⟩ (.expression ⟨.string, 2⟩))]

theorem run_order_interleavedLists :
    let b : Builder := { ledger := { config := { nodeLimit := some 12 } } }
    (b.UsesOwned interleavedLists ∧ (interleavedLists.flatMap Call.passed).Nodup ∧
        ∀ c ∈ interleavedLists, ¬ c.AddsToItself) ∧
      (b.run interleavedLists).1.ledger.childIds 4 = [1, 2, 3] ∧
      (b.run interleavedLists).1.ledger.childIds 12 = [10, 6, 11] ∧
      OrderSpec (b.run interleavedLists).1 :=
  ⟨by decide, rfl, rfl, run_order _ _ _ (by decide) (by decide) (by decide)⟩

end VerilogTree
