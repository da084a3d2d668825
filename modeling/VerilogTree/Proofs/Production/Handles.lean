import VerilogTree.Builder.Run
import VerilogTree.Proofs.Node.Stored

/-!
# The handles that are passed to a call

Every handle that a call is given, in the order of its parts, whether or not the node that is made
keeps it. What a node links is among what its production was given.
-/

namespace VerilogTree

def ExpressionProduction.arguments : ExpressionProduction → List AnyHandle
  | .identifier _ => []
  | .identifierNode ident => held ident
  | .attributeSpec name value => held name ++ held value
  | .attributeList first => held first
  | .attributeNode attributes => held attributes
  | .number .. => []
  | .range upper lower => held upper ++ held lower
  | .identifierLvalue _ ident => held ident
  | .concatenationLvalue _ concat => held concat
  | .constantPrimary value => held value
  | .primary value => held value
  | .modulePathPrimary value => held value
  | .functionCallPrimary call => held call
  | .primaryExpression prim => held prim
  | .unaryExpression operand _ attributes _ => held operand ++ held attributes
  | .binaryExpression left right _ attributes _ => held left ++ held right ++ held attributes
  | .rangeExpression left right => held left ++ held right
  | .indexExpression index => held index
  | .stringExpression _ => []
  | .conditionalExpression condition ifTrue ifFalse attributes =>
    held condition ++ held ifTrue ++ held ifFalse ++ held attributes
  | .minTypMaxExpression min typ max => held min ++ held typ ++ held max
  | .functionCall function _ _ attributes arguments =>
    held function ++ held attributes ++ held arguments
  | .concatenation _ count first => held count ++ held first
  | .emptyConcatenation _ => []

def TimingProduction.arguments : TimingProduction → List AnyHandle
  | .eventExpression _ expression => held expression
  | .eventSequence left right => held left ++ held right
  | .eventControl _ expression => held expression
  | .delayValue amount => held amount
  | .delay2 min max => held min ++ held max
  | .delay3 min avg max => held min ++ held avg ++ held max
  | .delayControlValue value => held value
  | .delayControlMinTypMax expression => held expression

def StatementProduction.arguments : StatementProduction → List AnyHandle
  | .taskEnable expressions identifier _ => held expressions ++ held identifier
  | .foreverLoop body => held body
  | .forLoop body initial modify condition =>
    held body ++ held initial ++ held modify ++ held condition
  | .whileLoop body condition => held body ++ held condition
  | .repeatLoop body count => held body ++ held count
  | .caseItem conditions body => held conditions ++ held body
  | .defaultCaseItem body => held body
  | .caseStatement expression cases _ => held expression ++ held cases
  | .functionCaseStatement expression cases _ => held expression ++ held cases
  | .conditional stmt condition => held stmt ++ held condition
  | .ifElse branch elseStatement => held branch ++ held elseStatement
  | .wait expression stmt => held expression ++ held stmt
  | .delayTiming _ stmt control => held stmt ++ held control
  | .eventTiming _ count stmt control => held count ++ held stmt ++ held control
  | .singleAssignment lvalue expression => held lvalue ++ held expression
  | .hybridAssignment _ assignment => held assignment
  | .hybridLvalueAssignment _ lvalue => held lvalue
  | .blockingAssignment lvalue expression delayOrEvent =>
    held lvalue ++ held expression ++ held delayOrEvent
  | .nonblockingAssignment lvalue expression delayOrEvent =>
    held lvalue ++ held expression ++ held delayOrEvent
  | .continuousAssignment assignments driveStrength delay =>
    held assignments ++ held driveStrength ++ held delay
  | .block _ identifier declarations statements =>
    held identifier ++ held declarations ++ held statements
  | .disable identifier => held identifier
  | .statement attributes _ data => held attributes ++ held data
  | .nullStatement attributes => held attributes
  | .generateItem data => held data

def PrimitiveProduction.arguments : PrimitiveProduction → List AnyHandle
  | .port _ identifier attributes _ defaultValue =>
    held identifier ++ held attributes ++ held defaultValue
  | .inputPort identifiers attributes => held identifiers ++ held attributes
  | .declaration attributes identifier ports body =>
    held attributes ++ held identifier ++ held ports ++ held body
  | .udpInstance identifier range output inputs =>
    held identifier ++ held range ++ held output ++ held inputs
  | .instantiation instances identifier driveStrength delay =>
    held instances ++ held identifier ++ held driveStrength ++ held delay
  | .initialStatement output value => held output ++ held value
  | .sequentialBody initial entries => held initial ++ held entries
  | .combinatorialBody entries => held entries
  | .combinatorialEntry .. => []
  | .sequentialEntry .. => []

def GateProduction.arguments : GateProduction → List AnyHandle
  | .switchGateDelay3 _ delay => held delay
  | .switchGateDelay2 _ delay => held delay
  | .switches gate items => held gate ++ held items
  | .pullStrength .. => []
  | .driveStrength .. => []
  | .pullGate name output => held name ++ held output
  | .pullGates _ strength instances => held strength ++ held instances
  | .passSwitch name terminal1 terminal2 => held name ++ held terminal1 ++ held terminal2
  | .nInputGate name inputs output => held name ++ held inputs ++ held output
  | .enableGate name output enable input =>
    held name ++ held output ++ held enable ++ held input
  | .mosSwitch name output enable input => held name ++ held output ++ held enable ++ held input
  | .cmosSwitch name output nControl pControl input =>
    held name ++ held output ++ held nControl ++ held pControl ++ held input
  | .passEnableSwitch name terminal1 terminal2 enable =>
    held name ++ held terminal1 ++ held terminal2 ++ held enable
  | .passEnableSwitches _ delay items => held delay ++ held items
  | .nInputGates _ delay drive instances => held delay ++ held drive ++ held instances
  | .enableGates _ delay drive instances => held delay ++ held drive ++ held instances
  | .nOutputGate name outputs input => held name ++ held outputs ++ held input
  | .nOutputGates _ delay drive instances => held delay ++ held drive ++ held instances
  | .instantiation group => held group

/-- The range of a parameter that is not generic is passed, but the node does not keep it. -/
def DesignProduction.arguments : DesignProduction → List AnyHandle
  | .generateBlock identifier items => held identifier ++ held items
  | .moduleInstantiation identifier parameters instances =>
    held identifier ++ held parameters ++ held instances
  | .moduleInstance identifier connections => held identifier ++ held connections
  | .namedPortConnection port expression => held port ++ held expression
  | .orderedPortConnection expression => held expression
  | .parameterDeclarations assignments _ _ range _ => held assignments ++ held range
  | .portDeclaration _ _ _ _ _ range names => held range ++ held names
  | .typeDeclaration _ identifiers modifiers =>
    held identifiers ++ held modifiers.delay ++ held modifiers.driveStrength ++
      held modifiers.range
  | .moduleDeclaration attributes identifier parameters ports items =>
    held attributes ++ held identifier ++ held parameters ++ held ports ++ held items
  | .sourceText descriptions => held descriptions

def Production.arguments : Production → List AnyHandle
  | .expression production => production.arguments
  | .path node => node.links
  | .timing production => production.arguments
  | .statement production => production.arguments
  | .primitive production => production.arguments
  | .gate production => production.arguments
  | .design production => production.arguments

def Call.arguments : Call → List AnyHandle
  | .construct production => production.arguments
  | .extend extension => extension.target :: extension.links
  | .releaseAll => []

/-- The handles that are passed to a production and then left out of its node. -/
def Production.dropped : Production → List AnyHandle
  | .design (.parameterDeclarations _ _ _ range form) => if form.isGeneric then [] else held range
  | _ => []

def Call.dropped : Call → List AnyHandle
  | .construct production => production.dropped
  | _ => []

/-! ## What a node links was passed to its production -/

section Held

variable {α : Type} [Holds α]

@[simp] theorem held_none : held (none : Option α) = [] := rfl

@[simp] theorem held_some (value : α) : held (some value) = held value := rfl

@[simp] theorem held_nil : held ([] : List α) = [] := rfl

theorem held_append (as bs : List α) : held (as ++ bs) = held as ++ held bs :=
  List.flatMap_append

theorem held_list_singleton (value : α) : held [value] = held value := by
  change [value].flatMap held = held value
  simp

@[simp] theorem held_getD_nil (values : Option (List α)) :
    held (values.getD []) = held values := by
  cases values <;> rfl

@[simp] theorem held_singleton (value : α) :
    held (Deque.empty.pushBack value) = held value := by
  change (Deque.empty.pushBack value).toList.flatMap held = held value
  simp

theorem held_pushFront (d : Deque α) (value : α) :
    held (d.pushFront value) = held value ++ held d := by
  change (d.pushFront value).toList.flatMap held = held value ++ d.toList.flatMap held
  simp

theorem held_pushBackAll (d : Deque α) (values : List α) :
    held (d.pushBackAll values) = held d ++ held values := by
  change (d.pushBackAll values).toList.flatMap held = d.toList.flatMap held ++ values.flatMap held
  simp

end Held

@[simp] theorem LoopHead.held_forever : held LoopHead.forever = [] := rfl

@[simp] theorem LoopHead.held_forLoop (initial modify : Handle .singleAssignment)
    (condition : Expression) :
    held (LoopHead.forLoop initial condition modify) =
      held initial ++ held condition ++ held modify :=
  rfl

@[simp] theorem LoopHead.held_whileLoop (condition : Expression) :
    held (LoopHead.whileLoop condition) = held condition :=
  rfl

@[simp] theorem LoopHead.held_repeatLoop (count : Expression) :
    held (LoopHead.repeatLoop count) = held count :=
  rfl

@[simp] theorem TimingControl.held_delay (control : Handle .delayCtrl) :
    held (TimingControl.delay control) = held control :=
  rfl

@[simp] theorem TimingControl.held_event (control : Handle .eventControl) :
    held (TimingControl.event control) = held control :=
  rfl

theorem ExpressionProduction.links_node {s : Store} {p : ExpressionProduction}
    {node : ExpressionNode} (h : p.node s = .ok node) : node.links = p.arguments := by
  cases p with
  | identifierLvalue form ident =>
      cases form <;> simp only [ExpressionProduction.node, LvalueTarget.ofIdentifier?] at h <;>
        cases h <;> rfl
  | concatenationLvalue form concat =>
      cases form <;> simp only [ExpressionProduction.node, LvalueTarget.ofConcatenation?] at h <;>
        cases h <;> rfl
  | unaryExpression operand operation attributes constant =>
      simp only [ExpressionProduction.node] at h
      split at h <;> cases h
      rfl
  | binaryExpression left right operation attributes constant =>
      simp only [ExpressionProduction.node] at h
      split at h <;> cases h
      rfl
  | functionCallPrimary call =>
      cases h
      rfl
  | emptyConcatenation role =>
      cases h
      rfl
  | _ =>
      cases h
      simp [ExpressionNode.links, arguments]

theorem TimingProduction.mem_links_node {p : TimingProduction} {node : TimingNode}
    (h : p.node = .ok node) (x : AnyHandle) : x ∈ node.links ↔ x ∈ p.arguments := by
  cases p with
  | eventExpression edge expression =>
      cases edge <;> simp only [TimingProduction.node, EventTrigger.onEdge?] at h <;> cases h <;>
        exact Iff.rfl
  | eventSequence left right =>
      cases h
      change x ∈ held right ++ (held left ++ []) ↔ x ∈ held left ++ held right
      rw [List.append_nil, List.mem_append, List.mem_append, or_comm]
  | eventControl form expression =>
      simp only [TimingProduction.node] at h
      split at h <;> cases h
      exact Iff.rfl
  | _ =>
      cases h
      exact Iff.rfl

theorem StatementProduction.mem_links_node {s : Store} {p : StatementProduction}
    {node : StatementNode} (h : p.node s = .ok node) (x : AnyHandle) :
    x ∈ node.links ↔ x ∈ p.arguments := by
  cases p with
  | delayTiming form stmt control =>
      simp only [StatementProduction.node] at h
      split at h <;> cases h
      simp only [StatementNode.links, arguments, TimingControl.held_delay, held_none,
        List.append_nil, List.mem_append]
      exact or_comm
  | eventTiming form count stmt control =>
      simp only [StatementProduction.node] at h
      split at h <;> cases h
      simp only [StatementNode.links, arguments, TimingControl.held_event, List.mem_append]
      grind
  | hybridAssignment form assignment =>
      cases h
      exact Iff.rfl
  | hybridLvalueAssignment form lvalue =>
      cases h
      exact Iff.rfl
  | blockingAssignment lvalue expression delayOrEvent =>
      cases h
      exact Iff.rfl
  | nonblockingAssignment lvalue expression delayOrEvent =>
      cases h
      exact Iff.rfl
  | continuousAssignment assignments driveStrength delay =>
      cases h
      exact Iff.rfl
  | _ =>
      cases h
      constructor <;> intro hx <;>
        simp only [StatementNode.links, arguments, held_none, held_some, held_nil, held_singleton,
          LoopHead.held_forever, LoopHead.held_forLoop, LoopHead.held_whileLoop,
          LoopHead.held_repeatLoop, List.mem_append] at hx ⊢ <;>
        grind

theorem PrimitiveProduction.mem_links_node {p : PrimitiveProduction} {node : PrimitiveNode}
    (h : p.node = .ok node) (x : AnyHandle) : x ∈ node.links ↔ x ∈ p.arguments := by
  cases p with
  | port direction identifier attributes reg defaultValue =>
      simp only [PrimitiveProduction.node] at h
      split at h <;> cases h
      exact Iff.rfl
  | instantiation instances identifier driveStrength delay =>
      cases h
      simp only [PrimitiveNode.links, arguments, List.mem_append]
      grind
  | _ =>
      cases h
      exact Iff.rfl

theorem GateProduction.mem_links_node {p : GateProduction} {node : GateNode}
    (h : p.node = .ok node) (x : AnyHandle) : x ∈ node.links ↔ x ∈ p.arguments := by
  cases p with
  | switchGateDelay3 form delay =>
      simp only [GateProduction.node] at h
      split at h <;> cases h
      exact Iff.rfl
  | switchGateDelay2 form delay =>
      simp only [GateProduction.node] at h
      split at h <;> cases h
      exact Iff.rfl
  | pullGates direction strength instances =>
      simp only [GateProduction.node] at h
      split at h <;> cases h
      exact Iff.rfl
  | _ =>
      cases h
      exact Iff.rfl

theorem DesignProduction.mem_arguments_iff (p : DesignProduction) (x : AnyHandle) :
    x ∈ p.arguments ↔ x ∈ p.node.links ∨ x ∈ (Production.design p).dropped := by
  cases p with
  | parameterDeclarations assignments isSigned isLocal range form =>
      simp only [arguments, DesignProduction.node, Production.dropped]
      split
      · simp [DesignNode.links]
      · simp [DesignNode.links]
  | _ => simp [Production.dropped, arguments, DesignProduction.node, DesignNode.links]

theorem exists_of_map_eq_ok {ε α β : Type} {f : α → β} {x : Except ε α} {b : β}
    (h : x.map f = .ok b) : ∃ a, x = .ok a ∧ f a = b := by
  cases x with
  | error e => cases h
  | ok a => exact ⟨a, rfl, Except.ok.inj h⟩

theorem map_eq_error_iff {ε α β : Type} {f : α → β} {x : Except ε α} {e : ε} :
    x.map f = .error e ↔ x = .error e := by
  cases x <;> simp [Except.map]

/-- A handle that is passed to a production is linked by its node or dropped. -/
theorem Production.mem_arguments_iff {s : Store} {p : Production} {body : Body}
    (h : p.body s = .ok body) (x : AnyHandle) :
    x ∈ p.arguments ↔ x ∈ body.links ∨ x ∈ p.dropped := by
  cases p with
  | expression p =>
      obtain ⟨node, hnode, rfl⟩ := exists_of_map_eq_ok h
      change x ∈ p.arguments ↔ x ∈ node.links ∨ x ∈ []
      rw [ExpressionProduction.links_node hnode, List.mem_nil_iff, or_false]
  | path node =>
      cases h
      change x ∈ node.links ↔ x ∈ node.links ∨ x ∈ []
      rw [List.mem_nil_iff, or_false]
  | timing p =>
      obtain ⟨node, hnode, rfl⟩ := exists_of_map_eq_ok h
      change x ∈ p.arguments ↔ x ∈ node.links ∨ x ∈ []
      rw [TimingProduction.mem_links_node hnode, List.mem_nil_iff, or_false]
  | statement p =>
      obtain ⟨node, hnode, rfl⟩ := exists_of_map_eq_ok h
      change x ∈ p.arguments ↔ x ∈ node.links ∨ x ∈ []
      rw [StatementProduction.mem_links_node hnode, List.mem_nil_iff, or_false]
  | primitive p =>
      obtain ⟨node, hnode, rfl⟩ := exists_of_map_eq_ok h
      change x ∈ p.arguments ↔ x ∈ node.links ∨ x ∈ []
      rw [PrimitiveProduction.mem_links_node hnode, List.mem_nil_iff, or_false]
  | gate p =>
      obtain ⟨node, hnode, rfl⟩ := exists_of_map_eq_ok h
      change x ∈ p.arguments ↔ x ∈ node.links ∨ x ∈ []
      rw [GateProduction.mem_links_node hnode, List.mem_nil_iff, or_false]
  | design p =>
      cases h
      exact DesignProduction.mem_arguments_iff p x

theorem Production.links_subset_arguments {s : Store} {p : Production} {body : Body}
    (h : p.body s = .ok body) : body.links ⊆ p.arguments :=
  fun x hx => (mem_arguments_iff h x).mpr (.inl hx)

/-! ## What a production makes of the store -/

theorem StatementProduction.defaultListed_node {s : Store} {p : StatementProduction}
    {node : StatementNode} (h : p.node s = .ok node) : node.DefaultListed := by
  cases p with
  | caseStatement expression cases form =>
      cases h
      intro item hitem
      exact List.mem_of_find?_eq_some hitem
  | functionCaseStatement expression cases form =>
      cases h
      intro item hitem
      exact List.mem_of_find?_eq_some hitem
  | delayTiming form stmt control =>
      simp only [StatementProduction.node] at h
      split at h <;> cases h
      trivial
  | eventTiming form count stmt control =>
      simp only [StatementProduction.node] at h
      split at h <;> cases h
      trivial
  | _ =>
      cases h
      trivial

theorem Production.defaultListed_body {s : Store} {p : Production} {body : Body}
    (h : p.body s = .ok body) : body.DefaultListed := by
  cases p with
  | statement p =>
      obtain ⟨node, hnode, rfl⟩ := exists_of_map_eq_ok h
      exact StatementProduction.defaultListed_node hnode
  | path node =>
      cases h
      trivial
  | design p =>
      cases h
      trivial
  | _ =>
      obtain ⟨node, -, rfl⟩ := exists_of_map_eq_ok h
      trivial

/-- A production reads the bodies of nodes and not their ids. -/
theorem Production.body_congr {s s' : Store} (h : ∀ slot, s.body? slot = s'.body? slot)
    (p : Production) : p.body s = p.body s' := by
  have hconstant : s.isConstantPrimary = s'.isConstantPrimary := by
    funext prim
    simp only [Store.isConstantPrimary, h]
  have hdefault : s.isDefaultItem = s'.isDefaultItem := by
    funext item
    simp only [Store.isDefaultItem, h]
  cases p with
  | expression p => cases p <;> simp only [Production.body, ExpressionProduction.node, hconstant]
  | statement p =>
      cases p <;>
        simp only [Production.body, StatementProduction.node, Store.defaultItem?, hdefault]
  | _ => rfl

/-! ## Extensions -/

theorem Body.eq_of_kind_attributeList {b : Body} (h : b.kind = .attributeList) :
    ∃ attributes, b = .expression (.attributeList attributes) := by
  cases b with
  | expression node => cases node <;> first | exact ⟨_, rfl⟩ | cases h
  | _ node => cases node <;> cases h

theorem Body.eq_of_kind_concatenation {b : Body} (h : b.kind = .concatenation) :
    ∃ role count items, b = .expression (.concatenation role count items) := by
  cases b with
  | expression node => cases node <;> first | exact ⟨_, _, _, rfl⟩ | cases h
  | _ node => cases node <;> cases h

theorem Body.eq_of_kind_ifElse {b : Body} (h : b.kind = .ifElse) :
    ∃ branches elseStatement, b = .statement (.ifElse branches elseStatement) := by
  cases b with
  | statement node => cases node <;> first | exact ⟨_, _, rfl⟩ | cases h
  | _ node => cases node <;> cases h

theorem Body.eq_of_kind_primary {b : Body} (h : b.kind = .primary) :
    ∃ role value, b = .expression (.primary role value) := by
  cases b with
  | expression node => cases node <;> first | exact ⟨_, _, rfl⟩ | cases h
  | _ node => cases node <;> cases h

namespace Extension

theorem kind_apply (e : Extension) (b : Body) : (e.apply b).kind = b.kind := by
  unfold apply
  split <;> rfl

/-- An extension adds its handles to those that the node stores already. -/
theorem mem_stored_apply {e : Extension} {b : Body} (h : b.kind = e.target.kind) (x : AnyHandle) :
    x ∈ (e.apply b).stored ↔ x ∈ e.links ∨ x ∈ b.stored := by
  have hne : b.kind ≠ .caseStatement := by
    rw [h]
    cases e <;> simp [target, Handle.erase]
  have hold : b.DefaultListed := Body.defaultListed_of_kind_ne hne
  have hnew : (e.apply b).DefaultListed := Body.defaultListed_of_kind_ne (kind_apply e b ▸ hne)
  rw [Body.mem_stored_iff hnew, Body.mem_stored_iff hold]
  cases e with
  | attributeSpec list added =>
      obtain ⟨attributes, rfl⟩ := Body.eq_of_kind_attributeList h
      change x ∈ held (attributes.pushFront added) ↔ x ∈ held added ∨ x ∈ held attributes
      rw [held_pushFront, List.mem_append]
  | item concatenation added =>
      obtain ⟨role, count, items, rfl⟩ := Body.eq_of_kind_concatenation h
      change x ∈ held count ++ held (items.pushFront added) ↔
        x ∈ held added ∨ x ∈ held count ++ held items
      simp only [held_pushFront, List.mem_append]
      exact or_left_comm
  | branches chain added =>
      obtain ⟨branches, elseStatement, rfl⟩ := Body.eq_of_kind_ifElse h
      change x ∈ held (branches.pushBackAll (added.getD [])) ++ held elseStatement ↔
        x ∈ held added ∨ x ∈ held branches ++ held elseStatement
      simp only [held_pushBackAll, held_getD_nil, List.mem_append]
      rw [or_comm (a := x ∈ held branches), or_assoc]

end Extension

end VerilogTree
