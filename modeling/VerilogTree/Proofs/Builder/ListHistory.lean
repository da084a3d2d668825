import VerilogTree.Proofs.Builder.Workshop

/-!
# Lists and the history of their extensions

A node is made once and is never made over. Of all its fields only a list that can grow is ever
changed, and only by the extensions of that node which were not refused. So whatever handles there
are to it, and whatever copies, the list is told by how it started and by its own extensions.
-/

namespace VerilogTree

namespace Extension

/-- The attributes that extensions add, in the order of the extensions. -/
def addedAttributes (es : List Extension) : List (Handle .attributeSpec) :=
  es.filterMap fun
    | .attributeSpec _ added => some added
    | _ => none

/-- The items that extensions add to concatenations, in the order of the extensions. -/
def addedItems (es : List Extension) : List ConcatenationItem :=
  es.filterMap fun
    | .item _ added => some added
    | _ => none

/-- The branches that extensions add, batch after batch. -/
def addedBranches (es : List Extension) : List (Handle .conditionalStatement) :=
  es.flatMap fun
    | .branches _ added => added.getD []
    | _ => []

end Extension

/-! ## Bodies that grow -/

namespace Body

/-- The kinds of the nodes whose lists can grow. -/
def growable : List Kind := [.attributeList, .concatenation, .ifElse]

/-- What extensions make of a body. Attributes and items come to stand in front of those before
them, the latest first, and branches behind; every other field stays, and a body without such a
list stays as it is. -/
inductive GrownBy (es : List Extension) : Body → Body → Prop
  | attributeList {old new : Deque (Handle .attributeSpec)}
      (hlist : new.toList = (Extension.addedAttributes es).reverse ++ old.toList) :
      GrownBy es (.expression (.attributeList old)) (.expression (.attributeList new))
  | concatenation {role : ConcatenationRole} {count : Option Expression}
      {old new : Deque ConcatenationItem}
      (hlist : new.toList = (Extension.addedItems es).reverse ++ old.toList) :
      GrownBy es (.expression (.concatenation role count old))
        (.expression (.concatenation role count new))
  | ifElse {elseStatement : Option (Handle .statement)}
      {old new : Deque (Handle .conditionalStatement)}
      (hlist : new.toList = old.toList ++ Extension.addedBranches es) :
      GrownBy es (.statement (.ifElse old elseStatement)) (.statement (.ifElse new elseStatement))
  | fixed {body : Body} (hkind : body.kind ∉ growable) : GrownBy es body body

theorem GrownBy.of_attributeList {es : List Extension} {old : Deque (Handle .attributeSpec)}
    {body : Body} (h : GrownBy es (.expression (.attributeList old)) body) :
    ∃ new : Deque (Handle .attributeSpec), body = .expression (.attributeList new) ∧
      new.toList = (Extension.addedAttributes es).reverse ++ old.toList := by
  cases h with
  | attributeList hlist => exact ⟨_, rfl, hlist⟩
  | fixed hkind => simp [growable, kind, ExpressionNode.kind] at hkind

theorem GrownBy.of_concatenation {es : List Extension} {role : ConcatenationRole}
    {count : Option Expression} {old : Deque ConcatenationItem} {body : Body}
    (h : GrownBy es (.expression (.concatenation role count old)) body) :
    ∃ new : Deque ConcatenationItem, body = .expression (.concatenation role count new) ∧
      new.toList = (Extension.addedItems es).reverse ++ old.toList := by
  cases h with
  | concatenation hlist => exact ⟨_, rfl, hlist⟩
  | fixed hkind => simp [growable, kind, ExpressionNode.kind] at hkind

theorem GrownBy.of_ifElse {es : List Extension} {old : Deque (Handle .conditionalStatement)}
    {elseStatement : Option (Handle .statement)} {body : Body}
    (h : GrownBy es (.statement (.ifElse old elseStatement)) body) :
    ∃ new : Deque (Handle .conditionalStatement),
      body = .statement (.ifElse new elseStatement) ∧
        new.toList = old.toList ++ Extension.addedBranches es := by
  cases h with
  | ifElse hlist => exact ⟨_, rfl, hlist⟩
  | fixed hkind => simp [growable, kind, StatementNode.kind] at hkind

/-- The body after one extension after the other. -/
def extendedBy (body : Body) (es : List Extension) : Body := es.foldl (fun b e => e.apply b) body

theorem extendedBy_append (body : Body) (es es' : List Extension) :
    body.extendedBy (es ++ es') = (body.extendedBy es).extendedBy es' :=
  List.foldl_append

theorem extendedBy_attributeList (es : List Extension) (old : Deque (Handle .attributeSpec)) :
    ∃ new : Deque (Handle .attributeSpec),
      (expression (.attributeList old)).extendedBy es = .expression (.attributeList new) ∧
        new.toList = (Extension.addedAttributes es).reverse ++ old.toList := by
  induction es generalizing old with
  | nil => exact ⟨old, rfl, rfl⟩
  | cons e es ih =>
      cases e with
      | attributeSpec list added =>
          obtain ⟨new, hbody, hlist⟩ := ih (old.pushFront added)
          exact ⟨new, hbody, by simp [hlist, Extension.addedAttributes]⟩
      | _ => exact ih old

theorem extendedBy_concatenation (es : List Extension) (role : ConcatenationRole)
    (count : Option Expression) (old : Deque ConcatenationItem) :
    ∃ new : Deque ConcatenationItem,
      (expression (.concatenation role count old)).extendedBy es =
          .expression (.concatenation role count new) ∧
        new.toList = (Extension.addedItems es).reverse ++ old.toList := by
  induction es generalizing old with
  | nil => exact ⟨old, rfl, rfl⟩
  | cons e es ih =>
      cases e with
      | item concatenation added =>
          obtain ⟨new, hbody, hlist⟩ := ih (old.pushFront added)
          exact ⟨new, hbody, by simp [hlist, Extension.addedItems]⟩
      | _ => exact ih old

theorem extendedBy_ifElse (es : List Extension) (old : Deque (Handle .conditionalStatement))
    (elseStatement : Option (Handle .statement)) :
    ∃ new : Deque (Handle .conditionalStatement),
      (statement (.ifElse old elseStatement)).extendedBy es =
          .statement (.ifElse new elseStatement) ∧
        new.toList = old.toList ++ Extension.addedBranches es := by
  induction es generalizing old with
  | nil => exact ⟨old, rfl, by simp [Extension.addedBranches]⟩
  | cons e es ih =>
      cases e with
      | branches chain added =>
          obtain ⟨new, hbody, hlist⟩ := ih (old.pushBackAll (added.getD []))
          exact ⟨new, hbody, by simp [hlist, Extension.addedBranches]⟩
      | _ => exact ih old

theorem extendedBy_of_not_growable {body : Body} (h : body.kind ∉ growable)
    (es : List Extension) : body.extendedBy es = body := by
  have happly : ∀ e : Extension, e.apply body = body := by
    intro e
    unfold Extension.apply
    split
    · simp [growable, kind, ExpressionNode.kind] at h
    · simp [growable, kind, ExpressionNode.kind] at h
    · simp [growable, kind, StatementNode.kind] at h
    · rfl
  induction es with
  | nil => rfl
  | cons e es ih =>
      change (e.apply body).extendedBy es = body
      rw [happly, ih]

theorem grownBy_extendedBy (body : Body) (es : List Extension) :
    body.GrownBy es (body.extendedBy es) := by
  by_cases hkind : body.kind ∈ growable
  · simp only [growable, List.mem_cons, List.not_mem_nil, or_false] at hkind
    rcases hkind with hkind | hkind | hkind
    · obtain ⟨old, rfl⟩ := eq_of_kind_attributeList hkind
      obtain ⟨new, hbody, hlist⟩ := extendedBy_attributeList es old
      rw [hbody]
      exact .attributeList hlist
    · obtain ⟨role, count, old, rfl⟩ := eq_of_kind_concatenation hkind
      obtain ⟨new, hbody, hlist⟩ := extendedBy_concatenation es role count old
      rw [hbody]
      exact .concatenation hlist
    · obtain ⟨old, elseStatement, rfl⟩ := eq_of_kind_ifElse hkind
      obtain ⟨new, hbody, hlist⟩ := extendedBy_ifElse es old elseStatement
      rw [hbody]
      exact .ifElse hlist
  · rw [extendedBy_of_not_growable hkind]
    exact .fixed hkind

end Body

/-! ## Calls -/

namespace Builder

/-- The extensions that a call makes of the node at a position: its own, if it is one and is not
refused. -/
def extensionsBy (b : Builder) (slot : Nat) : Call → List Extension
  | .extend e =>
    match (b.call (.extend e)).2 with
    | .ok _ => if e.target.slot = slot then [e] else []
    | .error _ => []
  | _ => []

/-- A call leaves a node as it was, up to its own extensions of that node. -/
theorem node?_call {b : Builder} {slot : Nat} {node : Node}
    (h : b.store.node? slot = some node) (c : Call) :
    (b.call c).1.store.node? slot =
      some ⟨node.id, node.body.extendedBy (b.extensionsBy slot c)⟩ := by
  cases c with
  | construct p =>
      obtain ⟨_, -, heq⟩ | ⟨body, _, -, -, heq⟩ | ⟨body, -, -, heq⟩ := b.construct_cases p
      · rw [call, heq]
        exact h
      · rw [call, heq]
        change b.granted.store.node? slot = some node
        rw [granted_store, h]
      · have hne := Nat.ne_of_lt (Store.lt_size_of_node? h)
        rw [call, heq]
        change (b.store.add ⟨b.newId, body⟩).node? slot = some node
        rw [Store.node?_add, if_neg hne, h]
  | extend e =>
      obtain ⟨-, heq⟩ | ⟨_, -, -, heq⟩ | ⟨-, -, heq⟩ := b.extend_cases e
      · simp only [extensionsBy, call, heq]
        exact h
      · simp only [extensionsBy, call, heq]
        exact h
      · simp only [extensionsBy, call, heq, extended, Store.node?_modify, h]
        by_cases hslot : slot = e.target.slot
        · rw [if_pos hslot, if_pos hslot.symm]
          rfl
        · rw [if_neg hslot, if_neg (Ne.symm hslot)]
          rfl
  | releaseAll => exact h

/-- A construction that succeeds puts the body of its production at the next position. -/
theorem node?_construct {b : Builder} {p : Production} {node : NodeRef}
    (h : (b.call (.construct p)).2 = .ok (some node)) :
    node.slot = b.store.size ∧ ∃ body, p.body b.store = .ok body ∧
      (b.call (.construct p)).1.store = b.store.add ⟨node.id, body⟩ := by
  obtain ⟨_, -, heq⟩ | ⟨body, _, -, -, heq⟩ | ⟨body, hbody, -, heq⟩ := b.construct_cases p
  · rw [call, heq] at h
    cases h
  · rw [call, heq] at h
    cases h
  · rw [call, heq] at h ⊢
    cases h
    exact ⟨rfl, body, hbody, rfl⟩

/-- Only a construction that succeeds adds a node. -/
theorem exists_construct {b : Builder} {c : Call} {slot : Nat} {node : Node}
    (hnode : (b.call c).1.store.node? slot = some node) (hnew : b.store.node? slot = none) :
    ∃ p ref body, c = .construct p ∧ (b.call c).2 = .ok (some ref) ∧ p.body b.store = .ok body ∧
      ref.slot = slot ∧ node = ⟨ref.id, body⟩ := by
  have hkept : b.store.node? slot ≠ some node := by simp [hnew]
  cases c with
  | construct p =>
      obtain ⟨_, -, heq⟩ | ⟨body, _, -, -, heq⟩ | ⟨body, hbody, -, heq⟩ := b.construct_cases p
      · rw [call, heq] at hnode
        exact absurd hnode hkept
      · rw [call, heq] at hnode
        change b.granted.store.node? slot = some node at hnode
        rw [granted_store] at hnode
        exact absurd hnode hkept
      · rw [call, heq] at hnode ⊢
        change (b.store.add ⟨b.newId, body⟩).node? slot = some node at hnode
        rw [Store.node?_add] at hnode
        split at hnode
        · rename_i hslot
          exact ⟨p, b.newRef body, body, rfl, rfl, hbody, hslot.symm, (Option.some.inj hnode).symm⟩
        · exact absurd hnode hkept
  | extend e =>
      obtain ⟨-, heq⟩ | ⟨_, -, -, heq⟩ | ⟨-, -, heq⟩ := b.extend_cases e
      · rw [call, heq] at hnode
        exact absurd hnode hkept
      · rw [call, heq] at hnode
        exact absurd hnode hkept
      · rw [call, heq] at hnode
        simp [extended, Store.node?_modify, hnew] at hnode
  | releaseAll => exact absurd hnode hkept

end Builder

/-! ## Tasks -/

namespace Workshop

/-- The extensions that a task makes of the node at a position. -/
def extensionsBy (w : Workshop) (slot : Nat) : Task → List Extension
  | .call i c =>
    match w.builder? i with
    | none => []
    | some b => b.extensionsBy slot c
  | _ => []

/-- The extensions of the node at a position that are made in a run, in order. -/
def extensionsOf (w : Workshop) (slot : Nat) : List Task → List Extension
  | [] => []
  | task :: rest => w.extensionsBy slot task ++ (w.perform task).extensionsOf slot rest

theorem node?_copy_of_lt (s : Store) (x : AnyHandle) {slot : Nat} (h : slot < s.size) :
    (s.copy x).1.node? slot = s.node? slot := by
  unfold Store.copy
  split
  · rfl
  · rw [Store.node?_add, if_neg (Nat.ne_of_lt h)]

theorem node?_perform {w : Workshop} {slot : Nat} {node : Node}
    (h : w.store.node? slot = some node) (task : Task) :
    (w.perform task).store.node? slot =
      some ⟨node.id, node.body.extendedBy (w.extensionsBy slot task)⟩ := by
  cases task with
  | newBuilder config => exact h
  | call i c =>
      cases hb : w.builder? i with
      | none =>
          simp only [perform, extensionsBy, hb]
          exact h
      | some b =>
          simp only [perform, extensionsBy, hb, putBack]
          exact Builder.node?_call (by rw [store_eq_of_builder? hb, h]) c
  | copy x =>
      change (w.store.copy x).1.node? slot = some node
      rw [node?_copy_of_lt w.store x (Store.lt_size_of_node? h), h]

theorem node?_run {w : Workshop} {slot : Nat} {node : Node}
    (h : w.store.node? slot = some node) (tasks : List Task) :
    (w.run tasks).store.node? slot =
      some ⟨node.id, node.body.extendedBy (w.extensionsOf slot tasks)⟩ := by
  induction tasks generalizing w node with
  | nil => exact h
  | cons task rest ih =>
      change ((w.perform task).run rest).store.node? slot = _
      rw [ih (node?_perform h task), extensionsOf, Body.extendedBy_append]

/-- A node that is there stays, with its id, and grows by its extensions. -/
theorem grown_run {w : Workshop} {slot : Nat} {node : Node}
    (h : w.store.node? slot = some node) (tasks : List Task) :
    ∃ body, (w.run tasks).store.node? slot = some ⟨node.id, body⟩ ∧
      node.body.GrownBy (w.extensionsOf slot tasks) body :=
  ⟨_, node?_run h tasks, Body.grownBy_extendedBy _ _⟩

/-! ## Where nodes come from -/

/-- Builder `i` makes a node from a production. -/
def Makes (w : Workshop) (i : Nat) (p : Production) (node : NodeRef) : Prop :=
  ∃ b, w.builder? i = some b ∧ (b.call (.construct p)).2 = .ok (some node)

/-- A task puts a node at a new position: the node of a production, or the same node as one that
is there already. -/
inductive Born (w : Workshop) : Task → Nat → Node → Prop
  | made {i : Nat} {p : Production} {node : NodeRef} {body : Body} (hmakes : w.Makes i p node)
      (hbody : p.body w.store = .ok body) :
      Born w (.call i (.construct p)) node.slot ⟨node.id, body⟩
  | copied {x : AnyHandle} {node : Node} (hnode : w.store.node? x.slot = some node) :
      Born w (.copy x) w.store.size node

theorem Makes.node?_perform {w : Workshop} {i : Nat} {p : Production} {node : NodeRef}
    (h : w.Makes i p node) : ∃ body, p.body w.store = .ok body ∧
      (w.perform (.call i (.construct p))).store.node? node.slot = some ⟨node.id, body⟩ := by
  obtain ⟨b, hb, hanswer⟩ := h
  obtain ⟨hslot, body, hbody, hstore⟩ := Builder.node?_construct hanswer
  refine ⟨body, store_eq_of_builder? hb ▸ hbody, ?_⟩
  simp only [perform, hb, putBack]
  rw [hstore, Store.node?_add, if_pos hslot]

theorem Born.node?_perform {w : Workshop} {task : Task} {slot : Nat} {node : Node}
    (h : Born w task slot node) : (w.perform task).store.node? slot = some node := by
  cases h with
  | made hmakes hbody =>
      obtain ⟨body, hbody', hnode⟩ := hmakes.node?_perform
      rw [hbody] at hbody'
      cases hbody'
      exact hnode
  | copied hnode =>
      simp only [perform, Store.copy, hnode]
      rw [Store.node?_add, if_pos rfl]

/-- A node that a task adds is one that it makes or copies. -/
theorem born_of_node? {w : Workshop} {task : Task} {slot : Nat} {node : Node}
    (hnode : (w.perform task).store.node? slot = some node) (hnew : w.store.node? slot = none) :
    Born w task slot node := by
  have hkept : w.store.node? slot ≠ some node := by simp [hnew]
  cases task with
  | newBuilder config => exact absurd hnode hkept
  | call i c =>
      cases hb : w.builder? i with
      | none =>
          simp only [perform, hb] at hnode
          exact absurd hnode hkept
      | some b =>
          have hstore := store_eq_of_builder? hb
          simp only [perform, hb, putBack] at hnode
          obtain ⟨p, ref, body, rfl, hanswer, hbody, rfl, rfl⟩ :=
            Builder.exists_construct hnode (hstore ▸ hnew)
          exact .made ⟨b, hb, hanswer⟩ (hstore ▸ hbody)
  | copy x =>
      simp only [perform, Store.copy] at hnode
      split at hnode
      · exact absurd hnode hkept
      · rename_i original horiginal
        rw [Store.node?_add] at hnode
        split at hnode
        · rename_i hslot
          cases hnode
          exact hslot ▸ .copied horiginal
        · exact absurd hnode hkept

/-- A node that is added in a run was made or copied by one of its tasks and has grown since. -/
theorem exists_born {w : Workshop} {tasks : List Task} {slot : Nat} {node : Node}
    (hnode : (w.run tasks).store.node? slot = some node) (hnew : w.store.node? slot = none) :
    ∃ before task after origin, tasks = before ++ task :: after ∧
      Born (w.run before) task slot origin ∧ node.id = origin.id ∧
      origin.body.GrownBy (((w.run before).perform task).extensionsOf slot after) node.body := by
  induction tasks generalizing w with
  | nil =>
      change w.store.node? slot = some node at hnode
      rw [hnew] at hnode
      cases hnode
  | cons task rest ih =>
      change ((w.perform task).run rest).store.node? slot = some node at hnode
      cases hnext : (w.perform task).store.node? slot with
      | none =>
          obtain ⟨before, later, after, origin, rfl, hborn⟩ := ih hnode hnext
          exact ⟨task :: before, later, after, origin, rfl, hborn⟩
      | some origin =>
          obtain ⟨body, hbody, hgrown⟩ := grown_run hnext rest
          rw [hnode] at hbody
          cases hbody
          exact ⟨[], task, rest, origin, rfl, born_of_node? hnext hnew, rfl, hgrown⟩

/-! ## The contract of lists -/

/-- What a run makes of the nodes of a workshop, those that are there and those to come. -/
structure ListSpec (w : Workshop) (tasks : List Task) : Prop where
  /-- A node that is there keeps its id and all its fields but its own list, which grows by the
  extensions of this node and by no others. -/
  kept : ∀ slot node, w.store.node? slot = some node →
    ∃ body, (w.run tasks).store.node? slot = some ⟨node.id, body⟩ ∧
      node.body.GrownBy (w.extensionsOf slot tasks) body
  /-- A node that is not there is made or copied by one of the tasks and is kept from then on. -/
  origin : ∀ slot node, (w.run tasks).store.node? slot = some node → w.store.node? slot = none →
    ∃ before task after origin, tasks = before ++ task :: after ∧
      Born (w.run before) task slot origin ∧ node.id = origin.id ∧
      origin.body.GrownBy (((w.run before).perform task).extensionsOf slot after) node.body
  /-- Items: the extensions since, the latest first, then the first value. -/
  concatenation : ∀ i role count first node,
    w.Makes i (.expression (.concatenation role count first)) node →
    let made := w.perform (.call i (.construct (.expression (.concatenation role count first))))
    ∃ items, (made.run tasks).store.node? node.slot =
        some ⟨node.id, .expression (.concatenation role count items)⟩ ∧
      items.toList =
        (Extension.addedItems (made.extensionsOf node.slot tasks)).reverse ++ [first]
  /-- Items of a concatenation that starts empty: the extensions since and nothing else. -/
  emptyConcatenation : ∀ i role node,
    w.Makes i (.expression (.emptyConcatenation role)) node →
    let made := w.perform (.call i (.construct (.expression (.emptyConcatenation role))))
    ∃ items, (made.run tasks).store.node? node.slot =
        some ⟨node.id, .expression (.concatenation role none items)⟩ ∧
      items.toList = (Extension.addedItems (made.extensionsOf node.slot tasks)).reverse
  /-- Attributes: the extensions since, the latest first, then the first attribute. -/
  attributeList : ∀ i first node, w.Makes i (.expression (.attributeList first)) node →
    let made := w.perform (.call i (.construct (.expression (.attributeList first))))
    ∃ attributes, (made.run tasks).store.node? node.slot =
        some ⟨node.id, .expression (.attributeList attributes)⟩ ∧
      attributes.toList =
        (Extension.addedAttributes (made.extensionsOf node.slot tasks)).reverse ++ [first]
  /-- Branches: the first one, then the batches of the extensions since, in their order. -/
  ifElse : ∀ i branch elseStatement node,
    w.Makes i (.statement (.ifElse branch elseStatement)) node →
    let made := w.perform (.call i (.construct (.statement (.ifElse branch elseStatement))))
    ∃ branches, (made.run tasks).store.node? node.slot =
        some ⟨node.id, .statement (.ifElse branches elseStatement)⟩ ∧
      branches.toList = branch :: Extension.addedBranches (made.extensionsOf node.slot tasks)
  /-- A copy starts as the node is at that moment, and from then on both of them grow by their own
  extensions. -/
  copied : ∀ x node, w.store.node? x.slot = some node →
    let made := w.perform (.copy x)
    (∃ body, (made.run tasks).store.node? w.store.size = some ⟨node.id, body⟩ ∧
      node.body.GrownBy (made.extensionsOf w.store.size tasks) body) ∧
    ∃ body, (made.run tasks).store.node? x.slot = some ⟨node.id, body⟩ ∧
      node.body.GrownBy (made.extensionsOf x.slot tasks) body

theorem Born.grown_run {w : Workshop} {task : Task} {slot : Nat} {node : Node}
    (h : Born w task slot node) (tasks : List Task) :
    ∃ body, ((w.perform task).run tasks).store.node? slot = some ⟨node.id, body⟩ ∧
      node.body.GrownBy ((w.perform task).extensionsOf slot tasks) body :=
  Workshop.grown_run h.node?_perform tasks

/-- Whatever is done in a workshop, with any handles to the same nodes and any copies of them, and
whatever is refused, released or denied an id: every list is how it started and its own extensions,
and no other field of a node ever changes. -/
theorem run_lists (w : Workshop) (tasks : List Task) : ListSpec w tasks where
  kept _ _ hnode := grown_run hnode tasks
  origin _ _ hnode hnew := exists_born hnode hnew
  concatenation i role count first node hmakes := by
    obtain ⟨body, hnode, hgrown⟩ := (Born.made hmakes rfl).grown_run tasks
    obtain ⟨items, rfl, hlist⟩ := hgrown.of_concatenation
    exact ⟨items, hnode, by simpa using hlist⟩
  emptyConcatenation i role node hmakes := by
    obtain ⟨body, hnode, hgrown⟩ := (Born.made hmakes rfl).grown_run tasks
    obtain ⟨items, rfl, hlist⟩ := hgrown.of_concatenation
    exact ⟨items, hnode, by simpa using hlist⟩
  attributeList i first node hmakes := by
    obtain ⟨body, hnode, hgrown⟩ := (Born.made hmakes rfl).grown_run tasks
    obtain ⟨attributes, rfl, hlist⟩ := hgrown.of_attributeList
    exact ⟨attributes, hnode, by simpa using hlist⟩
  ifElse i branch elseStatement node hmakes := by
    obtain ⟨body, hnode, hgrown⟩ := (Born.made hmakes rfl).grown_run tasks
    obtain ⟨branches, rfl, hlist⟩ := hgrown.of_ifElse
    exact ⟨branches, hnode, by simpa using hlist⟩
  copied x node hnode := by
    have hlt := Store.lt_size_of_node? hnode
    have hkept : (w.perform (.copy x)).store.node? x.slot = some node :=
      (node?_copy_of_lt w.store x hlt).trans hnode
    exact ⟨(Born.copied hnode).grown_run tasks, grown_run hkept tasks⟩

end Workshop

end VerilogTree
