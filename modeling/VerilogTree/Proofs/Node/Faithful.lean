import Mathlib.Data.List.Basic
import VerilogTree.Proofs.Node.Stored

/-!
# Shapes tell values apart

The fields of a node in the form of shapes are words, numbers and tags. Nothing is lost in that
form: different values have different shapes, tags and names do not clash, and a body can be told
from its kind and its fields, but for the place where a list that grows at both ends is cut into two
parts.
-/

namespace VerilogTree

/-! ## Enumerations -/

/-- Enumerations in which every member is found by its name. -/
class LawfulEnumeration (α : Type) [Enumeration α] : Prop where
  ofName?_name : ∀ a : α, Enumeration.ofName? (Enumeration.name a) = some a

theorem Enumeration.name_injective {α : Type} [Enumeration α] [LawfulEnumeration α] :
    Function.Injective (name : α → String) := by
  intro a b h
  have hb := LawfulEnumeration.ofName?_name b
  rw [← h, LawfulEnumeration.ofName?_name a] at hb
  exact Option.some.inj hb

instance : LawfulEnumeration Operator := ⟨fun a => by cases a <;> decide⟩

instance : LawfulEnumeration PrimaryRole := ⟨fun a => by cases a <;> decide⟩

instance : LawfulEnumeration NumberBase := ⟨fun a => by cases a <;> decide⟩

instance : LawfulEnumeration ConcatenationRole := ⟨fun a => by cases a <;> decide⟩

instance : LawfulEnumeration Polarity := ⟨fun a => by cases a <;> decide⟩

instance : LawfulEnumeration Edge := ⟨fun a => by cases a <;> decide⟩

instance : LawfulEnumeration CaseForm := ⟨fun a => by cases a <;> decide⟩

instance : LawfulEnumeration EventControlForm := ⟨fun a => by cases a <;> decide⟩

instance : LawfulEnumeration TimingForm := ⟨fun a => by cases a <;> decide⟩

instance : LawfulEnumeration HybridForm := ⟨fun a => by cases a <;> decide⟩

instance : LawfulEnumeration BlockForm := ⟨fun a => by cases a <;> decide⟩

instance : LawfulEnumeration PortDirection := ⟨fun a => by cases a <;> decide⟩

instance : LawfulEnumeration ParameterForm := ⟨fun a => by cases a <;> decide⟩

instance : LawfulEnumeration NetType := ⟨fun a => by cases a <;> decide⟩

instance : LawfulEnumeration DeclarationForm := ⟨fun a => by cases a <;> decide⟩

instance : LawfulEnumeration LevelSymbol := ⟨fun a => by cases a <;> decide⟩

instance : LawfulEnumeration EdgeSymbol := ⟨fun a => by cases a <;> decide⟩

instance : LawfulEnumeration NextState := ⟨fun a => by cases a <;> decide⟩

instance : LawfulEnumeration SwitchForm := ⟨fun a => by cases a <;> decide⟩

instance : LawfulEnumeration PassEnableForm := ⟨fun a => by cases a <;> decide⟩

instance : LawfulEnumeration NInputForm := ⟨fun a => by cases a <;> decide⟩

instance : LawfulEnumeration EnableForm := ⟨fun a => by cases a <;> decide⟩

instance : LawfulEnumeration NOutputForm := ⟨fun a => by cases a <;> decide⟩

instance : LawfulEnumeration PullDirection := ⟨fun a => by cases a <;> decide⟩

instance : LawfulEnumeration Strength := ⟨fun a => by cases a <;> decide⟩

instance : LawfulEnumeration ChargeStrength := ⟨fun a => by cases a <;> decide⟩

/-! ## Values with faithful shapes -/

/-- Types whose values can be told from their shapes. -/
class FaithfulShape (α : Type) [Shaped α] : Prop where
  shape_injective : Function.Injective (shape : α → Shape AnyHandle)

/-- Types whose values are not taken for an absent one. -/
class PresentShape (α : Type) [Shaped α] : Prop where
  shape_ne_absent : ∀ a : α, shape a ≠ .absent

export FaithfulShape (shape_injective)

export PresentShape (shape_ne_absent)

@[simp] theorem shape_inj {α : Type} [Shaped α] [FaithfulShape α] {a b : α} :
    shape a = shape b ↔ a = b :=
  shape_injective.eq_iff

instance : FaithfulShape Bool := ⟨fun _ _ h => by cases h; rfl⟩

instance : FaithfulShape Nat := ⟨fun _ _ h => by cases h; rfl⟩

instance : FaithfulShape String := ⟨fun _ _ h => by cases h; rfl⟩

instance {α : Type} [Enumeration α] [LawfulEnumeration α] : FaithfulShape α :=
  ⟨fun _ _ h => Enumeration.name_injective (Shape.word.inj h)⟩

instance {k : Kind} : FaithfulShape (Handle k) := by
  constructor
  rintro ⟨i⟩ ⟨j⟩ h
  cases h
  rfl

theorem ExpressionForm.kind_injective : Function.Injective ExpressionForm.kind := by
  intro a b h
  have hb : ofKind? b.kind = some b := by cases b <;> rfl
  have ha : ofKind? a.kind = some a := by cases a <;> rfl
  rw [← h, ha] at hb
  exact Option.some.inj hb

instance : FaithfulShape Expression := by
  constructor
  rintro ⟨form, i⟩ ⟨form', j⟩ h
  obtain ⟨hkind, hslot⟩ := AnyHandle.mk.inj (Shape.node.inj h)
  exact congrArg₂ Expression.mk (ExpressionForm.kind_injective hkind) hslot

instance : PresentShape Nat := ⟨fun _ h => by cases h⟩

instance {α : Type} [Enumeration α] : PresentShape α := ⟨fun _ h => by cases h⟩

instance {k : Kind} : PresentShape (Handle k) := ⟨fun _ h => by cases h⟩

instance : PresentShape Expression := ⟨fun _ h => by cases h⟩

instance : PresentShape StatementData := ⟨fun data h => by cases data <;> cases h⟩

instance {α : Type} [Shaped α] [FaithfulShape α] [PresentShape α] : FaithfulShape (Option α) := by
  constructor
  intro a b h
  cases a with
  | none =>
      cases b with
      | none => rfl
      | some b => exact (shape_ne_absent b h.symm).elim
  | some a =>
      cases b with
      | none => exact (shape_ne_absent a h).elim
      | some b => exact congrArg some (shape_injective h)

instance {α : Type} [Shaped α] [FaithfulShape α] : FaithfulShape (List α) :=
  ⟨fun _ _ h => shape_injective.list_map (Shape.list.inj h)⟩

/-- Of a deque only the sequence is to be seen. -/
@[simp] theorem shape_deque {α : Type} [Shaped α] (d : Deque α) : shape d = shape d.toList := rfl

/-! ## Parts of nodes -/

/-- What follows for each tag and the values under it follows for tagged values. -/
theorem Shape.of_tagged_eq {α : Type} {tag tag' : String} {value value' : Shape α} {p : Prop}
    (h : Shape.tagged tag value = Shape.tagged tag' value')
    (hsame : tag = tag' → value = value' → p) : p := by
  have hpair : tag = tag' ∧ value = value' := by simpa [tagged] using h
  exact hsame hpair.1 hpair.2

-- Different alternatives have different tags, and one alternative has its values under its tag.

instance : FaithfulShape PrimaryValue :=
  ⟨fun a b h => by cases a <;> cases b <;> exact Shape.of_tagged_eq h (by simp)⟩

instance : FaithfulShape ConcatenationItem :=
  ⟨fun a b h => by cases a <;> cases b <;> exact Shape.of_tagged_eq h (by simp)⟩

instance : FaithfulShape LvalueTarget :=
  ⟨fun a b h => by cases a <;> cases b <;> exact Shape.of_tagged_eq h (by simp)⟩

instance : FaithfulShape PathDescriptor :=
  ⟨fun a b h => by cases a <;> cases b <;> exact Shape.of_tagged_eq h (by simp)⟩

instance : FaithfulShape EventTrigger :=
  ⟨fun a b h => by cases a <;> cases b <;> exact Shape.of_tagged_eq h (by simp)⟩

instance : FaithfulShape DelayAmount :=
  ⟨fun a b h => by cases a <;> cases b <;> exact Shape.of_tagged_eq h (by simp)⟩

instance : FaithfulShape DelaySource :=
  ⟨fun a b h => by cases a <;> cases b <;> exact Shape.of_tagged_eq h (by simp)⟩

instance : FaithfulShape TimingControl :=
  ⟨fun a b h => by cases a <;> cases b <;> exact Shape.of_tagged_eq h (by simp)⟩

instance : FaithfulShape HybridTarget :=
  ⟨fun a b h => by cases a <;> cases b <;> exact Shape.of_tagged_eq h (by simp)⟩

instance : FaithfulShape AssignmentBody :=
  ⟨fun a b h => by cases a <;> cases b <;> exact Shape.of_tagged_eq h (by simp)⟩

instance : FaithfulShape BlockDeclaration :=
  ⟨fun a b h => by cases a <;> cases b <;> exact Shape.of_tagged_eq h (by simp)⟩

instance : FaithfulShape StatementData :=
  ⟨fun a b h => by cases a <;> cases b <;> exact Shape.of_tagged_eq h (by simp)⟩

instance : FaithfulShape SwitchDelay :=
  ⟨fun a b h => by cases a <;> cases b <;> exact Shape.of_tagged_eq h (by simp)⟩

instance : FaithfulShape SwitchInstance :=
  ⟨fun a b h => by cases a <;> cases b <;> exact Shape.of_tagged_eq h (by simp)⟩

instance : FaithfulShape GateGroup :=
  ⟨fun a b h => by cases a <;> cases b <;> exact Shape.of_tagged_eq h (by simp)⟩

instance : FaithfulShape ModuleItem :=
  ⟨fun a b h => by cases a <;> cases b <;> exact Shape.of_tagged_eq h (by simp)⟩

instance : FaithfulShape Description :=
  ⟨fun a b h => by cases a <;> cases b <;> exact Shape.of_tagged_eq h (by simp)⟩

instance : FaithfulShape UdpPortNames :=
  ⟨fun a b h => by cases a <;> cases b <;> exact Shape.of_tagged_eq h (by simp)⟩

instance : FaithfulShape UdpTable :=
  ⟨fun a b h => by cases a <;> cases b <;> exact Shape.of_tagged_eq h (by simp)⟩

instance : FaithfulShape InputSymbol :=
  ⟨fun a b h => by cases a <;> cases b <;> exact Shape.of_tagged_eq h (by simp)⟩

instance : FaithfulShape SequentialInputs :=
  ⟨fun a b h => by cases a <;> cases b <;> exact Shape.of_tagged_eq h (by simp)⟩

instance : FaithfulShape PathCondition := ⟨fun a b h => by
  cases a with
  | unconditional =>
      cases b with
      | unconditional => rfl
      | when => cases h
      | otherwise => exact absurd (Shape.word.inj h) (by decide)
  | when =>
      cases b with
      | when => exact Shape.of_tagged_eq h (by simp)
      | _ => cases h
  | otherwise =>
      cases b with
      | unconditional => exact absurd (Shape.word.inj h) (by decide)
      | when => cases h
      | otherwise => rfl⟩

instance : FaithfulShape LoopHead := ⟨fun a b h => by
  cases a with
  | forever =>
      cases b with
      | forever => rfl
      | _ => cases h
  | _ =>
      cases b with
      | forever => cases h
      | _ => exact Shape.of_tagged_eq h (by simp)⟩

/-! ## Nodes -/

@[simp] theorem Deque.ofList_inj {α : Type} {xs ys : List α} :
    Deque.ofList xs = Deque.ofList ys ↔ xs = ys := by
  simp [Deque.ofList]

/-- The node with its list cut in one place, if it has one that grows. -/
def ExpressionNode.recut : ExpressionNode → ExpressionNode
  | .attributeList attributes => .attributeList (.ofList attributes.toList)
  | .concatenation role count items => .concatenation role count (.ofList items.toList)
  | node => node

def StatementNode.recut : StatementNode → StatementNode
  | .ifElse branches elseStatement => .ifElse (.ofList branches.toList) elseStatement
  | node => node

theorem ExpressionNode.recut_eq {a b : ExpressionNode} (hkind : a.kind = b.kind)
    (h : a.fields = b.fields) : a.recut = b.recut := by
  cases a <;> cases b <;> cases hkind <;> simpa [fields, recut] using h

theorem PathNode.eq_of_fields {a b : PathNode} (hkind : a.kind = b.kind)
    (h : a.fields = b.fields) : a = b := by
  cases a <;> cases b <;> cases hkind <;> simpa [fields] using h

theorem TimingNode.eq_of_fields {a b : TimingNode} (hkind : a.kind = b.kind)
    (h : a.fields = b.fields) : a = b := by
  cases a <;> cases b <;> cases hkind <;> simpa [fields] using h

theorem StatementNode.recut_eq {a b : StatementNode} (hkind : a.kind = b.kind)
    (h : a.fields = b.fields) : a.recut = b.recut := by
  cases a <;> cases b <;> cases hkind <;> simpa [fields, recut] using h

theorem PrimitiveNode.eq_of_fields {a b : PrimitiveNode} (hkind : a.kind = b.kind)
    (h : a.fields = b.fields) : a = b := by
  cases a <;> cases b <;> cases hkind <;> simpa [fields] using h

theorem GateNode.eq_of_fields {a b : GateNode} (hkind : a.kind = b.kind)
    (h : a.fields = b.fields) : a = b := by
  cases a <;> cases b <;> cases hkind <;> simpa [fields] using h

attribute [ext] TypeModifiers

theorem DesignNode.eq_of_fields {a b : DesignNode} (hkind : a.kind = b.kind)
    (h : a.fields = b.fields) : a = b := by
  cases a <;> cases b <;> cases hkind <;> simpa [fields, TypeModifiers.ext_iff] using h

/-- The families that nodes are grouped into. -/
inductive Family where
  | expression | path | timing | statement | primitive | gate | design

/-- The family of the nodes of a kind. -/
def Kind.family : Kind → Family
  | .identifier | .identifierNode | .attributeSpec | .attributeList | .attributeNode | .number
  | .range | .lvalue | .primary | .primaryExpression | .unaryExpression | .binaryExpression
  | .rangeExpression | .indexExpression | .stringExpression | .conditionalExpression
  | .minTypMaxExpression | .functionCall | .concatenation => .expression
  | .simpleParallelPathDeclaration | .simpleFullPathDeclaration
  | .edgeSensitiveParallelPathDeclaration | .edgeSensitiveFullPathDeclaration
  | .pathDeclaration => .path
  | .eventExpression | .eventControl | .delayValue | .delay2 | .delay3 | .delayCtrl => .timing
  | .taskEnableStatement | .loopStatement | .caseItem | .caseStatement | .conditionalStatement
  | .ifElse | .waitStatement | .timingControlStatement | .singleAssignment | .assignment
  | .statementBlock | .disableStatement | .statement => .statement
  | .udpPort | .udpDeclaration | .udpInstance | .udpInstantiation | .udpInitialStatement
  | .udpBody | .udpCombinatorialEntry | .udpSequentialEntry => .primitive
  | .switchGate | .driveStrength | .primitivePullStrength | .pullGateInstance
  | .pullGateInstances | .passSwitchInstance | .nInputGateInstance | .enableGateInstance
  | .mosSwitchInstance | .cmosSwitchInstance | .passEnableSwitch | .passEnableSwitches
  | .nInputGateInstances | .enableGateInstances | .nOutputGateInstance | .nOutputGateInstances
  | .switches | .gateInstantiation => .gate
  | .generateBlock | .moduleInstantiation | .moduleInstance | .portConnection
  | .parameterDeclarations | .portDeclaration | .typeDeclaration | .moduleDeclaration
  | .sourceText => .design

namespace Body

def family : Body → Family
  | .expression _ => .expression
  | .path _ => .path
  | .timing _ => .timing
  | .statement _ => .statement
  | .primitive _ => .primitive
  | .gate _ => .gate
  | .design _ => .design

theorem family_kind (b : Body) : b.kind.family = b.family := by
  cases b with
  | _ node => cases node <;> rfl

/-- The body with its list cut in one place, if it has one that grows. -/
def recut : Body → Body
  | .expression node => .expression node.recut
  | .statement node => .statement node.recut
  | body => body

theorem kind_recut (b : Body) : b.recut.kind = b.kind := by
  cases b with
  | expression node => cases node <;> rfl
  | statement node => cases node <;> rfl
  | _ => rfl

theorem fields_recut (b : Body) : b.recut.fields = b.fields := by
  cases b with
  | expression node =>
      cases node <;> simp [recut, fields, ExpressionNode.recut, ExpressionNode.fields]
  | statement node =>
      cases node <;> simp [recut, fields, StatementNode.recut, StatementNode.fields]
  | _ => rfl

/-- A body is told by its kind and its fields, but for the cut of a list. -/
theorem recut_eq_iff (b c : Body) :
    b.recut = c.recut ↔ b.kind = c.kind ∧ b.fields = c.fields := by
  constructor
  · intro h
    rw [← b.kind_recut, ← b.fields_recut, h, kind_recut, fields_recut]
    exact ⟨rfl, rfl⟩
  · rintro ⟨hkind, hfields⟩
    have hfamily : b.family = c.family := by rw [← family_kind, hkind, family_kind]
    cases b <;> cases c <;> cases hfamily
    · exact congrArg expression (ExpressionNode.recut_eq hkind hfields)
    · exact congrArg path (PathNode.eq_of_fields hkind hfields)
    · exact congrArg timing (TimingNode.eq_of_fields hkind hfields)
    · exact congrArg statement (StatementNode.recut_eq hkind hfields)
    · exact congrArg primitive (PrimitiveNode.eq_of_fields hkind hfields)
    · exact congrArg gate (GateNode.eq_of_fields hkind hfields)
    · exact congrArg design (DesignNode.eq_of_fields hkind hfields)

end Body

end VerilogTree
