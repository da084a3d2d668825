import VerilogTree.Node.Basic

/-!
# Stored and linked handles

The fields of a node and the links made for it are written down apart from each other. They name
the same handles, provided that the default item of a case statement is one of its cases.
-/

namespace VerilogTree

/-! ## Leaves of shapes -/

namespace Shape

variable {α : Type}

theorem leavesOfList_eq_flatMap (items : List (Shape α)) :
    leavesOfList items = items.flatMap leaves := by
  induction items with
  | nil => rfl
  | cons item rest ih => simp [leavesOfList, ih]

end Shape

/-- Types whose values have no handle in their shapes. -/
class PlainShape (α : Type) [Shaped α] : Prop where
  leaves_shape_eq_nil : ∀ a : α, (shape a).leaves = []

/-- Types whose shapes have the handles that the values hold, in the same order. -/
class LawfulShape (α : Type) [Shaped α] [Holds α] : Prop where
  leaves_shape : ∀ a : α, (shape a).leaves = held a

export PlainShape (leaves_shape_eq_nil)

export LawfulShape (leaves_shape)

attribute [simp] leaves_shape_eq_nil leaves_shape

instance : PlainShape Bool := ⟨fun _ => rfl⟩

instance : PlainShape Nat := ⟨fun _ => rfl⟩

instance : PlainShape String := ⟨fun _ => rfl⟩

instance {α : Type} [Enumeration α] : PlainShape α := ⟨fun _ => rfl⟩

instance {α : Type} [Shaped α] [PlainShape α] : PlainShape (Option α) := by
  constructor
  intro a
  cases a with
  | none => rfl
  | some value => exact leaves_shape_eq_nil value

instance {α : Type} [Shaped α] [PlainShape α] : PlainShape (List α) := by
  constructor
  intro values
  change Shape.leavesOfList (values.map shape) = []
  simp [Shape.leavesOfList_eq_flatMap]

instance {k : Kind} : LawfulShape (Handle k) := ⟨fun _ => rfl⟩

instance : LawfulShape Expression := ⟨fun _ => rfl⟩

instance {α : Type} [Shaped α] [Holds α] [LawfulShape α] : LawfulShape (Option α) := by
  constructor
  intro a
  cases a with
  | none => rfl
  | some value => exact leaves_shape value

instance {α : Type} [Shaped α] [Holds α] [LawfulShape α] : LawfulShape (List α) := by
  constructor
  intro values
  change Shape.leavesOfList (values.map shape) = values.flatMap held
  rw [Shape.leavesOfList_eq_flatMap, List.flatMap_map]
  simp

instance {α : Type} [Shaped α] [Holds α] [LawfulShape α] : LawfulShape (Deque α) :=
  ⟨fun d => leaves_shape d.toList⟩

/-! ## Parts of nodes -/

/-- The leaves of a tagged value are those of the value. -/
@[simp] theorem Shape.leaves_tagged {α : Type} (tag : String) (value : Shape α) :
    (Shape.tagged tag value).leaves = value.leaves := by
  simp [Shape.tagged, Shape.leaves, Shape.leavesOfFields]

instance : LawfulShape PrimaryValue := ⟨fun value => by cases value <;> rfl⟩

instance : LawfulShape ConcatenationItem := ⟨fun item => by cases item <;> rfl⟩

instance : LawfulShape LvalueTarget := ⟨fun target => by cases target <;> rfl⟩

instance : LawfulShape PathCondition := ⟨fun condition => by cases condition <;> rfl⟩

instance : LawfulShape PathDescriptor := ⟨fun path => by cases path <;> rfl⟩

instance : LawfulShape DelayAmount := ⟨fun amount => by cases amount <;> rfl⟩

instance : LawfulShape DelaySource := ⟨fun source => by cases source <;> rfl⟩

instance : LawfulShape LoopHead := ⟨fun head => by cases head <;> rfl⟩

instance : LawfulShape TimingControl := ⟨fun control => by cases control <;> rfl⟩

instance : LawfulShape HybridTarget := ⟨fun target => by cases target <;> rfl⟩

instance : LawfulShape BlockDeclaration := ⟨fun declaration => by cases declaration <;> rfl⟩

instance : LawfulShape StatementData := ⟨fun data => by cases data <;> rfl⟩

instance : LawfulShape SwitchInstance := ⟨fun switch => by cases switch <;> rfl⟩

instance : LawfulShape GateGroup := ⟨fun group => by cases group <;> rfl⟩

instance : LawfulShape ModuleItem := ⟨fun item => by cases item <;> rfl⟩

instance : LawfulShape Description := ⟨fun description => by cases description <;> rfl⟩

instance : LawfulShape SwitchDelay := by
  constructor
  intro delay
  cases delay with
  | delay3 delay => exact (Shape.leaves_tagged _ _).trans (leaves_shape delay)
  | delay2 delay => exact (Shape.leaves_tagged _ _).trans (leaves_shape delay)

instance : LawfulShape EventTrigger := by
  constructor
  intro trigger
  cases trigger with
  | posedge e => rfl
  | negedge e => rfl
  | expression e => rfl
  | sequence events => exact (Shape.leaves_tagged _ _).trans (leaves_shape events)

instance : LawfulShape AssignmentBody := by
  constructor
  intro body
  cases body with
  | blocking lvalue expression delayOrEvent =>
      change _ = held lvalue ++ held expression ++ held delayOrEvent
      refine (Shape.leaves_tagged _ _).trans ?_
      simp [Shape.leaves, Shape.leavesOfFields]
  | nonblocking lvalue expression delayOrEvent =>
      change _ = held lvalue ++ held expression ++ held delayOrEvent
      refine (Shape.leaves_tagged _ _).trans ?_
      simp [Shape.leaves, Shape.leavesOfFields]
  | continuous assignments driveStrength delay =>
      change _ = held assignments ++ held driveStrength ++ held delay
      refine (Shape.leaves_tagged _ _).trans ?_
      simp [Shape.leaves, Shape.leavesOfFields]
  | hybrid form target =>
      change _ = held target
      refine (Shape.leaves_tagged _ _).trans ?_
      simp [Shape.leaves, Shape.leavesOfFields]

instance : LawfulShape UdpTable := by
  constructor
  intro table
  cases table with
  | combinatorial entries => exact (Shape.leaves_tagged _ _).trans (leaves_shape entries)
  | sequential initial entries =>
      change _ = held initial ++ held entries
      refine (Shape.leaves_tagged _ _).trans ?_
      simp [Shape.leaves, Shape.leavesOfFields]

instance : PlainShape InputSymbol := by
  constructor
  intro symbol
  cases symbol with
  | level level => exact (Shape.leaves_tagged _ _).trans (leaves_shape_eq_nil level)
  | edge edge => exact (Shape.leaves_tagged _ _).trans (leaves_shape_eq_nil edge)
  | transition before after =>
      exact (Shape.leaves_tagged _ _).trans (leaves_shape_eq_nil [before, after])

instance : PlainShape SequentialInputs := by
  constructor
  intro inputs
  cases inputs with
  | levels symbols => exact (Shape.leaves_tagged _ _).trans (leaves_shape_eq_nil symbols)
  | edges symbols => exact (Shape.leaves_tagged _ _).trans (leaves_shape_eq_nil symbols)

/-! ## Nodes -/

theorem ExpressionNode.leaves_fields (node : ExpressionNode) :
    Shape.leavesOfFields node.fields = node.links := by
  cases node <;> simp [fields, links, Shape.leavesOfFields]

theorem PathNode.leaves_fields (node : PathNode) :
    Shape.leavesOfFields node.fields = node.links := by
  cases node <;> simp [fields, links, Shape.leavesOfFields]

theorem TimingNode.leaves_fields (node : TimingNode) :
    Shape.leavesOfFields node.fields = node.links := by
  cases node <;> simp [fields, links, Shape.leavesOfFields]

theorem GateNode.leaves_fields (node : GateNode) :
    Shape.leavesOfFields node.fields = node.links := by
  cases node <;> simp [fields, links, Shape.leavesOfFields]

theorem DesignNode.leaves_fields (node : DesignNode) :
    Shape.leavesOfFields node.fields = node.links := by
  cases node <;> simp [fields, links, Shape.leavesOfFields]

@[simp] theorem UdpPortNames.leaves_shape_single (identifier : Handle .identifier) (reg : Bool)
    (defaultValue : Option Expression) :
    (shape (UdpPortNames.single identifier reg defaultValue)).leaves =
      held identifier ++ held defaultValue := by
  refine (Shape.leaves_tagged _ _).trans ?_
  simp [Shape.leaves, Shape.leavesOfFields]

@[simp] theorem UdpPortNames.leaves_shape_many (identifiers : List (Handle .identifier)) :
    (shape (UdpPortNames.many identifiers)).leaves = held identifiers :=
  (Shape.leaves_tagged _ _).trans (leaves_shape identifiers)

/-- The names of a port are linked before its attributes and stored after them. -/
theorem PrimitiveNode.leaves_fields_perm (node : PrimitiveNode) :
    (Shape.leavesOfFields node.fields).Perm node.links := by
  cases node with
  | port direction attributes names =>
      cases names with
      | single identifier reg defaultValue =>
          simp only [fields, links, Shape.leavesOfFields, leaves_shape_eq_nil, leaves_shape,
            UdpPortNames.leaves_shape_single, List.nil_append, List.append_nil]
          rw [← List.append_assoc]
          exact List.perm_append_comm.append_right _
      | many identifiers =>
          simp only [fields, links, Shape.leavesOfFields, leaves_shape_eq_nil, leaves_shape,
            UdpPortNames.leaves_shape_many, List.nil_append, List.append_nil]
          exact List.perm_append_comm
  | _ => simp [fields, links, Shape.leavesOfFields]

/-- The default item of a case statement is one of its cases. -/
def StatementNode.DefaultListed : StatementNode → Prop
  | .caseStatement _ cases _ _ defaultItem => ∀ item, defaultItem = some item → item ∈ cases
  | _ => True

theorem StatementNode.mem_leaves_fields_iff {node : StatementNode} (h : node.DefaultListed)
    (x : AnyHandle) : x ∈ Shape.leavesOfFields node.fields ↔ x ∈ node.links := by
  cases node with
  | caseStatement expression cases form isFunction defaultItem =>
      simp only [fields, links, Shape.leavesOfFields, leaves_shape_eq_nil, leaves_shape,
        List.nil_append, List.append_nil, List.mem_append]
      constructor
      · rintro (hx | hx | hx)
        · exact .inl hx
        · exact .inr hx
        · cases defaultItem with
          | none => cases hx
          | some item => exact .inr (List.mem_flatMap.mpr ⟨item, h item rfl, hx⟩)
      · rintro (hx | hx)
        · exact .inl hx
        · exact .inr (.inl hx)
  | _ => simp [fields, links, Shape.leavesOfFields]

namespace Body

def DefaultListed : Body → Prop
  | .statement node => node.DefaultListed
  | _ => True

theorem defaultListed_of_kind_ne {b : Body} (h : b.kind ≠ .caseStatement) : b.DefaultListed := by
  cases b with
  | statement node =>
      cases node with
      | caseStatement => exact (h rfl).elim
      | _ => trivial
  | _ => trivial

/-- The handles that a node stores are those that are linked when it is made. -/
theorem mem_stored_iff {b : Body} (h : b.DefaultListed) (x : AnyHandle) :
    x ∈ b.stored ↔ x ∈ b.links := by
  cases b with
  | expression node => exact Iff.of_eq (congrArg (x ∈ ·) node.leaves_fields)
  | path node => exact Iff.of_eq (congrArg (x ∈ ·) node.leaves_fields)
  | timing node => exact Iff.of_eq (congrArg (x ∈ ·) node.leaves_fields)
  | statement node => exact StatementNode.mem_leaves_fields_iff h x
  | primitive node => exact node.leaves_fields_perm.mem_iff
  | gate node => exact Iff.of_eq (congrArg (x ∈ ·) node.leaves_fields)
  | design node => exact Iff.of_eq (congrArg (x ∈ ·) node.leaves_fields)

end Body

end VerilogTree
