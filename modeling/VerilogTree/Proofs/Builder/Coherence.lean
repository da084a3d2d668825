import VerilogTree.Proofs.Builder.Workshop

/-!
# Forms and flags that fit the parts

Many nodes have a form or a flag beside the parts that it speaks of, and nothing in the types keeps
the two together. A node is coherent when they fit. Every node of every workshop is, as long as the
tasks are given handles that were returned before: productions make coherent nodes, extensions keep
them so, and the one condition that looks at another node looks at a primary, which never changes.
-/

namespace VerilogTree

/-! ## Coherent nodes -/

def ExpressionNode.Coherent (s : Store) : ExpressionNode → Prop
  | .attributeList attributes => attributes.toList ≠ []
  | .primaryExpression prim constant => ∃ role value,
      s.body? prim.slot = some (.expression (.primary role value)) ∧
        (constant = true ↔ role = .constant)
  | .unaryExpression operation .. => operation.isUnary = true
  | .binaryExpression _ _ operation .. => operation.isBinary = true
  | _ => True

def TimingNode.Coherent : TimingNode → Prop
  | .eventControl form expression => form = .any → expression = none
  | _ => True

def StatementNode.Coherent : StatementNode → Prop
  | .caseItem conditions _ isDefault => isDefault = true → conditions = []
  | .ifElse branches _ => branches.toList ≠ []
  | .timingControl form control count _ =>
      ((∃ delay, control = .delay delay) ↔ form = .delayControl) ∧
        (form = .delayControl → count = none)
  | .statement attributes isFunction isGenerate data =>
      (data = none → isFunction = false ∧ isGenerate = false) ∧
        (isGenerate = true → data ≠ none ∧ attributes = none ∧ isFunction = false)
  | _ => True

def PrimitiveNode.Coherent : PrimitiveNode → Prop
  | .port direction _ names => direction = .input ↔ ∃ identifiers, names = .many identifiers
  | _ => True

def GateNode.Coherent : GateNode → Prop
  | .pullGates direction .. => direction = .up ∨ direction = .down
  | .switchGate form delay => (∃ delay2, delay = .delay2 delay2) ↔ form = .tran ∨ form = .rtran
  | _ => True

def DesignNode.Coherent : DesignNode → Prop
  | .parameterDeclarations form _ isSigned _ range =>
      form ≠ .generic → isSigned = false ∧ range = none
  | _ => True

/-- The forms and flags of a node fit its parts. The store says what the parts are. -/
def Body.Coherent (s : Store) : Body → Prop
  | .expression node => node.Coherent s
  | .path _ => True
  | .timing node => node.Coherent
  | .statement node => node.Coherent
  | .primitive node => node.Coherent
  | .gate node => node.Coherent
  | .design node => node.Coherent

namespace Store

def Coherent (s : Store) : Prop := ∀ slot body, s.body? slot = some body → body.Coherent s

/-- A handle stands for a node of its kind. -/
def Has (s : Store) (x : AnyHandle) : Prop :=
  ∃ body, s.body? x.slot = some body ∧ body.kind = x.kind

/-- What nodes there were are there still, with their kinds, and primaries are as they were. -/
def Keeps (s s' : Store) : Prop :=
  ∀ slot body, s.body? slot = some body →
    ∃ body', s'.body? slot = some body' ∧ body'.kind = body.kind ∧
      (body.kind = .primary → body' = body)

theorem Keeps.refl (s : Store) : s.Keeps s := fun _ body h => ⟨body, h, rfl, fun _ => rfl⟩

theorem Has.of_keeps {s s' : Store} {x : AnyHandle} (h : s.Has x) (hkeeps : s.Keeps s') :
    s'.Has x := by
  obtain ⟨body, hbody, hkind⟩ := h
  obtain ⟨body', hbody', hkind', -⟩ := hkeeps _ _ hbody
  exact ⟨body', hbody', hkind'.trans hkind⟩

end Store

theorem Body.Coherent.of_keeps {s s' : Store} {body : Body} (h : body.Coherent s)
    (hkeeps : s.Keeps s') : body.Coherent s' := by
  cases body with
  | expression node =>
      cases node with
      | primaryExpression prim constant =>
          obtain ⟨role, value, hprim, hconstant⟩ := h
          obtain ⟨body', hbody', -, hsame⟩ := hkeeps _ _ hprim
          rw [hsame rfl] at hbody'
          exact ⟨role, value, hbody', hconstant⟩
      | _ => exact h
  | _ => exact h

/-! ## Productions make coherent nodes -/

theorem ExpressionProduction.coherent_node {s : Store} {p : ExpressionProduction}
    {node : ExpressionNode} (h : p.node s = .ok node) (hargs : ∀ x ∈ p.arguments, s.Has x) :
    node.Coherent s := by
  cases p with
  | attributeList first =>
      cases h
      simp [ExpressionNode.Coherent]
  | primaryExpression prim =>
      cases h
      obtain ⟨body, hbody, hkind⟩ := hargs prim.erase (List.mem_singleton.mpr rfl)
      obtain ⟨role, value, rfl⟩ := Body.eq_of_kind_primary hkind
      refine ⟨role, value, hbody, ?_⟩
      have hflag : s.isConstantPrimary prim = role.isConstant := by
        change s.body? prim.slot = _ at hbody
        rw [Store.isConstantPrimary, hbody]
      rw [hflag]
      cases role <;> decide
  | unaryExpression operand operation attributes constant =>
      simp only [ExpressionProduction.node] at h
      split at h <;> cases h
      assumption
  | binaryExpression left right operation attributes constant =>
      simp only [ExpressionProduction.node] at h
      split at h <;> cases h
      assumption
  | identifierLvalue form ident =>
      cases form <;> simp only [ExpressionProduction.node, LvalueTarget.ofIdentifier?] at h <;>
        cases h <;> trivial
  | concatenationLvalue form concat =>
      cases form <;> simp only [ExpressionProduction.node, LvalueTarget.ofConcatenation?] at h <;>
        cases h <;> trivial
  | _ =>
      cases h
      trivial

theorem TimingProduction.coherent_node {p : TimingProduction} {node : TimingNode}
    (h : p.node = .ok node) : node.Coherent := by
  cases p with
  | eventExpression edge expression =>
      cases edge <;> simp only [TimingProduction.node, EventTrigger.onEdge?] at h <;> cases h <;>
        trivial
  | eventControl form expression =>
      simp only [TimingProduction.node] at h
      split at h <;> cases h
      rename_i hform
      intro hany
      exact Option.not_isSome_iff_eq_none.mp fun hsome => hform ⟨hany, hsome⟩
  | _ =>
      cases h
      trivial

theorem StatementProduction.coherent_node {s : Store} {p : StatementProduction}
    {node : StatementNode} (h : p.node s = .ok node) : node.Coherent := by
  cases p with
  | delayTiming form stmt control =>
      simp only [StatementProduction.node] at h
      split at h <;> cases h
      rename_i hform
      exact ⟨⟨fun _ => hform, fun _ => ⟨control, rfl⟩⟩, fun _ => rfl⟩
  | eventTiming form count stmt control =>
      simp only [StatementProduction.node] at h
      split at h <;> cases h
      rename_i hform
      have hne : form ≠ .delayControl := by
        rintro rfl
        cases hform
      simp [StatementNode.Coherent, hne]
  | _ =>
      cases h
      simp [StatementNode.Coherent]

theorem PrimitiveProduction.coherent_node {p : PrimitiveProduction} {node : PrimitiveNode}
    (h : p.node = .ok node) : node.Coherent := by
  cases p with
  | port direction identifier attributes reg defaultValue =>
      simp only [PrimitiveProduction.node] at h
      split at h <;> cases h
      rename_i hdirection
      have hne : direction ≠ .input := by
        rintro rfl
        exact hdirection rfl
      simp [PrimitiveNode.Coherent, hne]
  | inputPort identifiers attributes =>
      cases h
      simp [PrimitiveNode.Coherent]
  | _ =>
      cases h
      trivial

theorem SwitchForm.takesDelay2_iff (form : SwitchForm) :
    form.takesDelay2 = true ↔ form = .tran ∨ form = .rtran := by
  cases form <;> decide

theorem GateProduction.coherent_node {p : GateProduction} {node : GateNode}
    (h : p.node = .ok node) : node.Coherent := by
  cases p with
  | switchGateDelay3 form delay =>
      simp only [GateProduction.node] at h
      split at h <;> cases h
      rename_i hform
      simp [GateNode.Coherent, ← SwitchForm.takesDelay2_iff, hform]
  | switchGateDelay2 form delay =>
      simp only [GateProduction.node] at h
      split at h <;> cases h
      rename_i hform
      simp [GateNode.Coherent, ← SwitchForm.takesDelay2_iff, hform]
  | pullGates direction strength instances =>
      simp only [GateProduction.node] at h
      split at h <;> cases h
      rename_i hdirection
      cases direction with
      | up => exact .inl rfl
      | down => exact .inr rfl
      | none => exact (hdirection rfl).elim
  | _ =>
      cases h
      trivial

theorem DesignProduction.coherent_node (p : DesignProduction) : p.node.Coherent := by
  cases p with
  | parameterDeclarations assignments isSigned isLocal range form =>
      cases form with
      | generic => exact fun hne => (hne rfl).elim
      | _ => exact fun _ => ⟨rfl, rfl⟩
  | _ => trivial

theorem Production.coherent_body {s : Store} {p : Production} {body : Body}
    (h : p.body s = .ok body) (hargs : ∀ x ∈ p.arguments, s.Has x) : body.Coherent s := by
  cases p with
  | expression p =>
      obtain ⟨node, hnode, rfl⟩ := exists_of_map_eq_ok h
      exact ExpressionProduction.coherent_node hnode hargs
  | path node =>
      cases h
      trivial
  | timing p =>
      obtain ⟨node, hnode, rfl⟩ := exists_of_map_eq_ok h
      exact TimingProduction.coherent_node hnode
  | statement p =>
      obtain ⟨node, hnode, rfl⟩ := exists_of_map_eq_ok h
      exact StatementProduction.coherent_node hnode
  | primitive p =>
      obtain ⟨node, hnode, rfl⟩ := exists_of_map_eq_ok h
      exact PrimitiveProduction.coherent_node hnode
  | gate p =>
      obtain ⟨node, hnode, rfl⟩ := exists_of_map_eq_ok h
      exact GateProduction.coherent_node hnode
  | design p =>
      cases h
      exact DesignProduction.coherent_node p

/-! ## Extensions keep nodes coherent -/

namespace Extension

theorem coherent_apply {s : Store} {body : Body} (h : body.Coherent s) (e : Extension) :
    (e.apply body).Coherent s := by
  unfold apply
  split
  · simp [Body.Coherent, ExpressionNode.Coherent]
  · trivial
  · -- There may be no branch to add, so the chain is nonempty because it was before.
    simp only [Body.Coherent, StatementNode.Coherent] at h ⊢
    simp [h]
  · exact h

theorem apply_of_kind_primary {body : Body} (h : body.kind = .primary) (e : Extension) :
    e.apply body = body := by
  obtain ⟨role, value, rfl⟩ := Body.eq_of_kind_primary h
  cases e <;> rfl

end Extension

/-! ## Changes of the store -/

namespace Store

theorem keeps_add (s : Store) (node : Node) : s.Keeps (s.add node) := by
  intro slot body hbody
  obtain ⟨old, hold, -⟩ := Option.map_eq_some_iff.mp hbody
  have hne := Nat.ne_of_lt (lt_size_of_node? hold)
  refine ⟨body, ?_, rfl, fun _ => rfl⟩
  rw [body?_add, if_neg hne, hbody]

theorem keeps_modify (s : Store) (slot : Nat) (e : Extension) :
    s.Keeps (s.modify slot e.apply) := by
  intro x body hbody
  rw [body?_modify, hbody]
  split
  · exact ⟨_, rfl, e.kind_apply body, fun h => Extension.apply_of_kind_primary h e⟩
  · exact ⟨body, rfl, rfl, fun _ => rfl⟩

theorem Coherent.add {s : Store} (h : s.Coherent) {node : Node} (hnode : node.body.Coherent s) :
    (s.add node).Coherent := by
  intro slot body hbody
  rw [body?_add] at hbody
  split at hbody
  · cases hbody
    exact hnode.of_keeps (s.keeps_add node)
  · exact (h slot body hbody).of_keeps (s.keeps_add node)

theorem Coherent.modify {s : Store} (h : s.Coherent) (slot : Nat) (e : Extension) :
    (s.modify slot e.apply).Coherent := by
  intro x body hbody
  rw [body?_modify] at hbody
  split at hbody
  · obtain ⟨old, hold, rfl⟩ := Option.map_eq_some_iff.mp hbody
    exact (Extension.coherent_apply (h x old hold) e).of_keeps (s.keeps_modify slot e)
  · exact (h x body hbody).of_keeps (s.keeps_modify slot e)

/-- A change of a store that returns handles: nothing gets lost, all nodes are coherent, and the
handles are good. -/
structure Advances (s s' : Store) (handles : List AnyHandle) : Prop where
  keeps : s.Keeps s'
  coherent : s'.Coherent
  has : ∀ x ∈ handles, s'.Has x

theorem Coherent.advances {s : Store} (h : s.Coherent) : s.Advances s [] where
  keeps := .refl s
  coherent := h
  has _ hx := (List.not_mem_nil hx).elim

theorem Coherent.advances_add {s : Store} (h : s.Coherent) {node : Node}
    (hnode : node.body.Coherent s) : s.Advances (s.add node) [⟨node.body.kind, s.size⟩] where
  keeps := s.keeps_add node
  coherent := h.add hnode
  has x hx := by
    obtain rfl := List.mem_singleton.mp hx
    exact ⟨node.body, by rw [body?_add, if_pos rfl], rfl⟩

theorem Coherent.advances_copy {s : Store} (h : s.Coherent) {x : AnyHandle} (hx : s.Has x) :
    s.Advances (s.copy x).1 [(s.copy x).2] := by
  obtain ⟨body, hbody, hkind⟩ := hx
  obtain ⟨node, hnode, rfl⟩ := Option.map_eq_some_iff.mp hbody
  rw [copy, hnode, ← hkind]
  exact h.advances_add (h x.slot node.body hbody)

end Store

/-! ## Calls and tasks -/

theorem Builder.call_advances {b : Builder} (h : b.store.Coherent) {c : Call}
    (hargs : ∀ x ∈ c.arguments, b.store.Has x) :
    b.store.Advances (b.call c).1.store (Workshop.handlesOf (b.call c).2) := by
  cases c with
  | construct p =>
      obtain ⟨_, -, heq⟩ | ⟨_, _, -, -, heq⟩ | ⟨body, hbody, -, heq⟩ := b.construct_cases p
      · rw [Builder.call, heq]
        exact h.advances
      · rw [Builder.call, heq]
        change b.store.Advances b.granted.store []
        rw [granted_store]
        exact h.advances
      · rw [Builder.call, heq]
        change b.store.Advances (b.store.add ⟨b.newId, body⟩) [⟨body.kind, b.store.size⟩]
        exact h.advances_add (Production.coherent_body hbody hargs)
  | extend e =>
      obtain ⟨-, heq⟩ | ⟨_, -, -, heq⟩ | ⟨-, -, heq⟩ := b.extend_cases e
      · rw [Builder.call, heq]
        exact h.advances
      · rw [Builder.call, heq]
        exact h.advances
      · rw [Builder.call, heq]
        exact ⟨b.store.keeps_modify _ e, h.modify _ e, fun _ hx => (List.not_mem_nil hx).elim⟩
  | releaseAll => exact h.advances

namespace Workshop

/-- All nodes are coherent and all returned handles are good. -/
structure Sound (w : Workshop) : Prop where
  coherent : w.store.Coherent
  has : ∀ x ∈ w.returned, w.store.Has x

theorem Sound.advance {w after : Workshop} (h : w.Sound) {handles : List AnyHandle}
    (hstore : w.store.Advances after.store handles)
    (hreturned : after.returned = handles ++ w.returned) : after.Sound := by
  refine ⟨hstore.coherent, ?_⟩
  intro x hx
  rw [hreturned] at hx
  rcases List.mem_append.mp hx with hx | hx
  · exact hstore.has x hx
  · exact (h.has x hx).of_keeps hstore.keeps

theorem Sound.perform {w : Workshop} (h : w.Sound) {task : Task}
    (hargs : ∀ x ∈ task.arguments, x ∈ w.returned) : (w.perform task).Sound := by
  have hhas : ∀ x ∈ task.arguments, w.store.Has x := fun x hx => h.has x (hargs x hx)
  have hstep := w.performed task
  generalize w.perform task = after at hstep ⊢
  cases hstep with
  | opened config => exact ⟨h.coherent, h.has⟩
  | absent => exact h
  | called c hb =>
      have hstore := store_eq_of_builder? hb
      have hcoherent := h.coherent
      change ∀ x ∈ c.arguments, w.store.Has x at hhas
      rw [← hstore] at hcoherent hhas
      have hcall := Builder.call_advances hcoherent hhas
      rw [hstore] at hcall
      exact h.advance hcall rfl
  | copied node =>
      exact h.advance (h.coherent.advances_copy (hhas node (List.mem_singleton.mpr rfl))) rfl

theorem Sound.run {w : Workshop} (h : w.Sound) {tasks : List Task} (htasks : w.UsesReturned tasks) :
    (w.run tasks).Sound := by
  induction tasks generalizing w with
  | nil => exact h
  | cons task rest ih => exact ih (h.perform htasks.1) htasks.2

theorem sound_new : Sound {} where
  coherent _ _ h := by cases h
  has _ hx := (List.not_mem_nil hx).elim

/-- In every state that builders reach with handles that builders returned, whatever was refused,
released or denied an id on the way, every node is coherent. -/
theorem run_coherent (tasks : List Task) (h : UsesReturned {} tasks) (slot : Nat) (node : Node)
    (hnode : (run {} tasks).store.node? slot = some node) :
    node.body.Coherent (run {} tasks).store :=
  (sound_new.run h).coherent slot node.body (by rw [Store.body?, hnode]; rfl)

/-- Two builders of which one releases its tree and the other has no ids at all. A grown list is
copied, and a primary of the released tree is refused by its own builder and taken by the other. -/
def sharedPrimary : List Task := [
  .newBuilder {},
  .newBuilder { nodeLimit := some 0 },
  .call 0 (.construct (.expression (.identifier "a"))),
  .call 0 (.construct (.expression (.attributeSpec ⟨0⟩ none))),
  .call 0 (.construct (.expression (.attributeList ⟨1⟩))),
  .call 0 (.extend (.attributeSpec ⟨2⟩ ⟨1⟩)),
  .copy ⟨.attributeList, 2⟩,
  .call 0 (.construct (.expression (.constantPrimary (.identifier ⟨0⟩)))),
  .call 0 .releaseAll,
  .call 0 (.construct (.expression (.primaryExpression ⟨4⟩))),
  .call 1 (.construct (.expression (.primaryExpression ⟨4⟩)))]

theorem run_coherent_sharedPrimary :
    UsesReturned {} sharedPrimary ∧
      (run {} sharedPrimary).store.node? 5 =
        some ⟨0, .expression (.primaryExpression ⟨4⟩ true)⟩ ∧
      Body.Coherent (run {} sharedPrimary).store (.expression (.primaryExpression ⟨4⟩ true)) :=
  ⟨by decide, rfl, run_coherent sharedPrimary (by decide) 5 _ rfl⟩

end Workshop

end VerilogTree
