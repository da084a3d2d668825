import VerilogTree.Enumeration

/-! # Discriminants of paths, timing and statements -/

namespace VerilogTree

/-- The polarity of a specify path. -/
inductive Polarity where
  | positive | negative
deriving DecidableEq

instance : Enumeration Polarity where
  members := [.positive, .negative]
  name
    | .positive => "Positive"
    | .negative => "Negative"

/-- The edge that a path or an event waits for. -/
inductive Edge where
  | positive | negative | any | none
deriving DecidableEq

instance : Enumeration Edge where
  members := [.positive, .negative, .any, .none]
  name
    | .positive => "Positive"
    | .negative => "Negative"
    | .any => "Any"
    | .none => "None"

/-- The four forms of a specify path. -/
inductive PathForm where
  | simpleParallel | simpleFull | edgeSensitiveParallel | edgeSensitiveFull
deriving DecidableEq

instance : Enumeration PathForm where
  members := [.simpleParallel, .simpleFull, .edgeSensitiveParallel, .edgeSensitiveFull]
  name
    | .simpleParallel => "SimpleParallel"
    | .simpleFull => "SimpleFull"
    | .edgeSensitiveParallel => "EdgeSensitiveParallel"
    | .edgeSensitiveFull => "EdgeSensitiveFull"

/-- The four forms of a loop. -/
inductive LoopForm where
  | forever | forLoop | whileLoop | repeatLoop
deriving DecidableEq

instance : Enumeration LoopForm where
  members := [.forever, .forLoop, .whileLoop, .repeatLoop]
  name
    | .forever => "Forever"
    | .forLoop => "For"
    | .whileLoop => "While"
    | .repeatLoop => "Repeat"

/-- How a case statement treats unknown and high-impedance bits. -/
inductive CaseForm where
  | plain | casex | casez
deriving DecidableEq

instance : Enumeration CaseForm where
  members := [.plain, .casex, .casez]
  name
    | .plain => "Case"
    | .casex => "Casex"
    | .casez => "Casez"

/-- What an event expression waits for. -/
inductive EventForm where
  | posedge | negedge | expression | sequence
deriving DecidableEq

instance : Enumeration EventForm where
  members := [.posedge, .negedge, .expression, .sequence]
  name
    | .posedge => "Posedge"
    | .negedge => "Negedge"
    | .expression => "Expression"
    | .sequence => "Sequence"

def EventForm.isEdge : EventForm → Bool
  | .posedge | .negedge => true
  | _ => false

/-- How an event control names its event. -/
inductive EventControlForm where
  | identifier | expression | any
deriving DecidableEq

instance : Enumeration EventControlForm where
  members := [.identifier, .expression, .any]
  name
    | .identifier => "Identifier"
    | .expression => "Expression"
    | .any => "Any"

/-- What a timing control waits for. -/
inductive TimingForm where
  | delayControl | eventControl | eventControlRepeat
deriving DecidableEq

instance : Enumeration TimingForm where
  members := [.delayControl, .eventControl, .eventControlRepeat]
  name
    | .delayControl => "DelayControl"
    | .eventControl => "EventControl"
    | .eventControlRepeat => "EventControlRepeat"

def TimingForm.isEventControl : TimingForm → Bool
  | .eventControl | .eventControlRepeat => true
  | .delayControl => false

/-- The four forms of an assignment. -/
inductive AssignmentForm where
  | blocking | nonblocking | continuous | hybrid
deriving DecidableEq

instance : Enumeration AssignmentForm where
  members := [.blocking, .nonblocking, .continuous, .hybrid]
  name
    | .blocking => "Blocking"
    | .nonblocking => "Nonblocking"
    | .continuous => "Continuous"
    | .hybrid => "Hybrid"

/-- The procedural continuous assignments. -/
inductive HybridForm where
  | assign | deassign | force | release
deriving DecidableEq

instance : Enumeration HybridForm where
  members := [.assign, .deassign, .force, .release]
  name
    | .assign => "Assign"
    | .deassign => "Deassign"
    | .force => "Force"
    | .release => "Release"

/-- How the statements of a block are run. -/
inductive BlockForm where
  | sequential | parallel
deriving DecidableEq

instance : Enumeration BlockForm where
  members := [.sequential, .parallel]
  name
    | .sequential => "Sequential"
    | .parallel => "Parallel"

/-- What a statement consists of. -/
inductive StatementForm where
  | assignment | caseStatement | ifElse | disable | loop | block | timingControl | taskEnable
  | wait | functionCall | moduleInstantiation | gateInstantiation | udpInstantiation
  | generateBlock | typeDeclaration | parameterDeclarations | null
deriving DecidableEq

instance : Enumeration StatementForm where
  members := [
    .assignment, .caseStatement, .ifElse, .disable, .loop, .block, .timingControl, .taskEnable,
    .wait, .functionCall, .moduleInstantiation, .gateInstantiation, .udpInstantiation,
    .generateBlock, .typeDeclaration, .parameterDeclarations, .null]
  name
    | .assignment => "Assignment"
    | .caseStatement => "Case"
    | .ifElse => "IfElse"
    | .disable => "Disable"
    | .loop => "Loop"
    | .block => "Block"
    | .timingControl => "TimingControl"
    | .taskEnable => "TaskEnable"
    | .wait => "Wait"
    | .functionCall => "FunctionCall"
    | .moduleInstantiation => "ModuleInstantiation"
    | .gateInstantiation => "GateInstantiation"
    | .udpInstantiation => "UdpInstantiation"
    | .generateBlock => "GenerateBlock"
    | .typeDeclaration => "TypeDeclaration"
    | .parameterDeclarations => "ParameterDeclarations"
    | .null => "Null"

end VerilogTree
