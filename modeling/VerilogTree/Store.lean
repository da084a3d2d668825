import VerilogTree.Node.Basic

/-!
# The store of nodes

A store holds every node ever made, in the order in which they were made, whichever ledger they
belong to and whether or not it has been released. A handle is a position in the store, so it
stays good, and what is done to a node shows through every handle to it.
-/

namespace VerilogTree

structure Store where
  nodes : Array Node := #[]

namespace Store

/-- How many nodes there are; the next node gets this position. -/
def size (s : Store) : Nat := s.nodes.size

def node? (s : Store) (slot : Nat) : Option Node := s.nodes[slot]?

def body? (s : Store) (slot : Nat) : Option Body := (s.node? slot).map Node.body

/-- The id of a node, or zero. -/
def idAt (s : Store) (slot : Nat) : Nat := (s.node? slot).elim 0 Node.id

def idsOf (s : Store) (handles : List AnyHandle) : List Nat := handles.map fun h => s.idAt h.slot

/-- What a ledger keeps of a node. -/
def ref (s : Store) (h : AnyHandle) : NodeRef := ⟨h, s.idAt h.slot⟩

/-- Adds a node. Its position is the size of the store before. -/
def add (s : Store) (node : Node) : Store := ⟨s.nodes.push node⟩

/-- Replaces the body of a node, which keeps its id. -/
def modify (s : Store) (slot : Nat) (f : Body → Body) : Store :=
  ⟨s.nodes.modify slot fun node => { node with body := f node.body }⟩

/-- Adds a copy of a node: the same id, the same children, and a list of its own if it has one. -/
def copy (s : Store) (h : AnyHandle) : Store × AnyHandle :=
  match s.node? h.slot with
  | none => (s, h)
  | some node => (s.add node, ⟨h.kind, s.size⟩)

/-! ## Questions about a node behind a handle -/

/-- Is a primary one that may stand in a constant expression? -/
def isConstantPrimary (s : Store) (h : Handle .primary) : Bool :=
  match s.body? h.slot with
  | some (.expression (.primary role _)) => role.isConstant
  | _ => false

/-- Is an expression known to be constant? -/
def isConstant (s : Store) (e : Expression) : Bool :=
  match s.body? e.slot with
  | some (.expression node) => node.isConstant
  | _ => false

/-- Is a case item the default one? -/
def isDefaultItem (s : Store) (h : Handle .caseItem) : Bool :=
  match s.body? h.slot with
  | some (.statement (.caseItem _ _ isDefault)) => isDefault
  | _ => false

/-- The form of the table in the body of a primitive. -/
def udpForm? (s : Store) (h : Handle .udpBody) : Option UdpForm :=
  match s.body? h.slot with
  | some (.primitive (.body table)) => some table.form
  | _ => none

/-- The family of a switch gate. -/
def switchGateForm? (s : Store) (h : Handle .switchGate) : Option GateForm :=
  match s.body? h.slot with
  | some (.gate (.switchGate form _)) => some form.gateForm
  | _ => none

/-- The family of the gates in a gate instantiation. A group that pulls neither way has none. -/
def gateForm? (s : Store) : GateGroup → Option GateForm
  | .switches h =>
    match s.body? h.slot with
    | some (.gate (.switches gate _)) => s.switchGateForm? gate
    | _ => none
  | .passEnable _ => some .passEnable
  | .nInput _ => some .nInput
  | .enable _ => some .enable
  | .nOutput _ => some .nOutput
  | .pull h =>
    match s.body? h.slot with
    | some (.gate (.pullGates direction _ _)) => direction.gateForm?
    | _ => none

end Store

end VerilogTree
