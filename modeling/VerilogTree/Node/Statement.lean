import VerilogTree.Discriminant.Statement
import VerilogTree.Shape

/-! # Statements and assignments -/

namespace VerilogTree

/-- The head of a loop. -/
inductive LoopHead where
  | forever
  | forLoop (initial : Handle .singleAssignment) (condition : Expression)
      (modify : Handle .singleAssignment)
  | whileLoop (condition : Expression)
  | repeatLoop (count : Expression)

/-- What a timing control waits for. -/
inductive TimingControl where
  | delay (control : Handle .delayCtrl)
  | event (control : Handle .eventControl)

/-- What a procedural continuous assignment acts on. -/
inductive HybridTarget where
  | assignment (assignment : Handle .singleAssignment)
  | lvalue (lvalue : Handle .lvalue)

/-- The parts of an assignment. -/
inductive AssignmentBody where
  | blocking (lvalue : Handle .lvalue) (expression : Expression)
      (delayOrEvent : Option (Handle .timingControlStatement))
  | nonblocking (lvalue : Handle .lvalue) (expression : Expression)
      (delayOrEvent : Option (Handle .timingControlStatement))
  | continuous (assignments : List (Handle .singleAssignment))
      (driveStrength : Option (Handle .driveStrength)) (delay : Option (Handle .delay3))
  | hybrid (form : HybridForm) (target : HybridTarget)

/-- A declaration at the head of a block. -/
inductive BlockDeclaration where
  | type (declaration : Handle .typeDeclaration)
  | parameters (declarations : Handle .parameterDeclarations)

/-- What a statement consists of. -/
inductive StatementData where
  | assignment (assignment : Handle .assignment)
  | caseStatement (statement : Handle .caseStatement)
  | ifElse (statement : Handle .ifElse)
  | disable (statement : Handle .disableStatement)
  | loop (statement : Handle .loopStatement)
  | block (block : Handle .statementBlock)
  | timingControl (statement : Handle .timingControlStatement)
  | taskEnable (statement : Handle .taskEnableStatement)
  | wait (statement : Handle .waitStatement)
  | functionCall (call : Handle .functionCall)
  | moduleInstantiation (instantiation : Handle .moduleInstantiation)
  | gateInstantiation (instantiation : Handle .gateInstantiation)
  | udpInstantiation (instantiation : Handle .udpInstantiation)
  | generateBlock (block : Handle .generateBlock)
  | typeDeclaration (declaration : Handle .typeDeclaration)
  | parameterDeclarations (declarations : Handle .parameterDeclarations)

inductive StatementNode where
  | taskEnable (identifier : Handle .identifier) (expressions : List Expression) (isSystem : Bool)
  | loop (head : LoopHead) (body : Handle .statement)
  | caseItem (conditions : List Expression) (body : Option (Handle .statement))
      (isDefault : Bool)
  /-- The default item is one of the cases. -/
  | caseStatement (expression : Expression) (cases : List (Handle .caseItem)) (form : CaseForm)
      (isFunction : Bool) (defaultItem : Option (Handle .caseItem))
  | conditional (condition : Expression) (statement : Handle .statement)
  | ifElse (branches : Deque (Handle .conditionalStatement))
      (elseStatement : Option (Handle .statement))
  | wait (expression : Expression) (statement : Handle .statement)
  | timingControl (form : TimingForm) (control : TimingControl) (count : Option Expression)
      (statement : Option (Handle .statement))
  | singleAssignment (lvalue : Handle .lvalue) (expression : Expression)
  | assignment (body : AssignmentBody)
  | block (form : BlockForm) (identifier : Option (Handle .identifier))
      (declarations : List BlockDeclaration) (statements : List (Handle .statement))
  | disable (identifier : Handle .identifier)
  | statement (attributes : Option (Handle .attributeList)) (isFunction isGenerate : Bool)
      (data : Option StatementData)

/-! ## Accessors -/

def LoopHead.form : LoopHead → LoopForm
  | .forever => .forever
  | .forLoop .. => .forLoop
  | .whileLoop _ => .whileLoop
  | .repeatLoop _ => .repeatLoop

/-- The expression that governs a loop: its condition, or its number of rounds. -/
def LoopHead.condition? : LoopHead → Option Expression
  | .forever => none
  | .forLoop _ condition _ => some condition
  | .whileLoop condition => some condition
  | .repeatLoop count => some count

def AssignmentBody.form : AssignmentBody → AssignmentForm
  | .blocking .. => .blocking
  | .nonblocking .. => .nonblocking
  | .continuous .. => .continuous
  | .hybrid .. => .hybrid

def StatementData.form : StatementData → StatementForm
  | .assignment _ => .assignment
  | .caseStatement _ => .caseStatement
  | .ifElse _ => .ifElse
  | .disable _ => .disable
  | .loop _ => .loop
  | .block _ => .block
  | .timingControl _ => .timingControl
  | .taskEnable _ => .taskEnable
  | .wait _ => .wait
  | .functionCall _ => .functionCall
  | .moduleInstantiation _ => .moduleInstantiation
  | .gateInstantiation _ => .gateInstantiation
  | .udpInstantiation _ => .udpInstantiation
  | .generateBlock _ => .generateBlock
  | .typeDeclaration _ => .typeDeclaration
  | .parameterDeclarations _ => .parameterDeclarations

/-- The form of a statement; one that consists of nothing is a null statement. -/
def StatementForm.ofData (data : Option StatementData) : StatementForm :=
  data.elim .null StatementData.form

/-- The cases other than the default item. An item is told from another by its handle: the default
item is left out as often as it is listed, and an equal item elsewhere in the store is kept. -/
def nonDefaultItems (cases : List (Handle .caseItem)) (defaultItem : Option (Handle .caseItem)) :
    List (Handle .caseItem) :=
  cases.filter fun item => defaultItem ≠ some item

/-! ## Shapes -/

instance : Shaped LoopHead where
  shape
    | .forever => .word "Forever"
    | .forLoop initial condition modify =>
      .tagged "For" (.record
        [("initial", shape initial), ("condition", shape condition), ("modify", shape modify)])
    | .whileLoop condition => .tagged "While" (.record [("condition", shape condition)])
    | .repeatLoop count => .tagged "Repeat" (.record [("count", shape count)])

instance : Holds LoopHead where
  held
    | .forever => []
    | .forLoop initial condition modify => held initial ++ held condition ++ held modify
    | .whileLoop condition => held condition
    | .repeatLoop count => held count

instance : Shaped TimingControl where
  shape
    | .delay h => .tagged "Delay" (shape h)
    | .event h => .tagged "Event" (shape h)

instance : Holds TimingControl where
  held
    | .delay h => held h
    | .event h => held h

instance : Shaped HybridTarget where
  shape
    | .assignment h => .tagged "Assignment" (shape h)
    | .lvalue h => .tagged "Lvalue" (shape h)

instance : Holds HybridTarget where
  held
    | .assignment h => held h
    | .lvalue h => held h

instance : Shaped AssignmentBody where
  shape
    | .blocking lvalue expression delayOrEvent =>
      .tagged "Blocking" (.record [("lval", shape lvalue), ("expression", shape expression),
        ("delay_or_event", shape delayOrEvent)])
    | .nonblocking lvalue expression delayOrEvent =>
      .tagged "Nonblocking" (.record [("lval", shape lvalue), ("expression", shape expression),
        ("delay_or_event", shape delayOrEvent)])
    | .continuous assignments driveStrength delay =>
      .tagged "Continuous" (.record [("assignments", shape assignments),
        ("drive_strength", shape driveStrength), ("delay", shape delay)])
    | .hybrid form target =>
      .tagged "Hybrid" (.record [("hybrid_type", shape form), ("target", shape target)])

instance : Holds AssignmentBody where
  held
    | .blocking lvalue expression delayOrEvent =>
      held lvalue ++ held expression ++ held delayOrEvent
    | .nonblocking lvalue expression delayOrEvent =>
      held lvalue ++ held expression ++ held delayOrEvent
    | .continuous assignments driveStrength delay =>
      held assignments ++ held driveStrength ++ held delay
    | .hybrid _ target => held target

instance : Shaped BlockDeclaration where
  shape
    | .type h => .tagged "Type" (shape h)
    | .parameters h => .tagged "Parameters" (shape h)

instance : Holds BlockDeclaration where
  held
    | .type h => held h
    | .parameters h => held h

instance : Shaped StatementData where
  shape
    | .assignment h => .tagged "Assignment" (shape h)
    | .caseStatement h => .tagged "Case" (shape h)
    | .ifElse h => .tagged "IfElse" (shape h)
    | .disable h => .tagged "Disable" (shape h)
    | .loop h => .tagged "Loop" (shape h)
    | .block h => .tagged "Block" (shape h)
    | .timingControl h => .tagged "TimingControl" (shape h)
    | .taskEnable h => .tagged "TaskEnable" (shape h)
    | .wait h => .tagged "Wait" (shape h)
    | .functionCall h => .tagged "FunctionCall" (shape h)
    | .moduleInstantiation h => .tagged "ModuleInstantiation" (shape h)
    | .gateInstantiation h => .tagged "GateInstantiation" (shape h)
    | .udpInstantiation h => .tagged "UdpInstantiation" (shape h)
    | .generateBlock h => .tagged "GenerateBlock" (shape h)
    | .typeDeclaration h => .tagged "TypeDeclaration" (shape h)
    | .parameterDeclarations h => .tagged "ParameterDeclarations" (shape h)

instance : Holds StatementData where
  held
    | .assignment h => held h
    | .caseStatement h => held h
    | .ifElse h => held h
    | .disable h => held h
    | .loop h => held h
    | .block h => held h
    | .timingControl h => held h
    | .taskEnable h => held h
    | .wait h => held h
    | .functionCall h => held h
    | .moduleInstantiation h => held h
    | .gateInstantiation h => held h
    | .udpInstantiation h => held h
    | .generateBlock h => held h
    | .typeDeclaration h => held h
    | .parameterDeclarations h => held h

namespace StatementNode

def kind : StatementNode → Kind
  | .taskEnable .. => .taskEnableStatement
  | .loop .. => .loopStatement
  | .caseItem .. => .caseItem
  | .caseStatement .. => .caseStatement
  | .conditional .. => .conditionalStatement
  | .ifElse .. => .ifElse
  | .wait .. => .waitStatement
  | .timingControl .. => .timingControlStatement
  | .singleAssignment .. => .singleAssignment
  | .assignment .. => .assignment
  | .block .. => .statementBlock
  | .disable .. => .disableStatement
  | .statement .. => .statement

def fields : StatementNode → List (String × Shape AnyHandle)
  | .taskEnable identifier expressions isSystem =>
    [("identifier", shape identifier), ("expressions", shape expressions),
      ("is_system", shape isSystem)]
  | .loop head body => [("kind", shape head), ("body", shape body)]
  | .caseItem conditions body isDefault =>
    [("conditions", shape conditions), ("body", shape body), ("is_default", shape isDefault)]
  | .caseStatement expression cases form isFunction defaultItem =>
    [("expression", shape expression), ("cases", shape cases), ("case_type", shape form),
      ("is_function", shape isFunction), ("default_item", shape defaultItem)]
  | .conditional condition stmt =>
    [("condition", shape condition), ("statement", shape stmt)]
  | .ifElse branches elseStatement =>
    [("conditional_statements", shape branches), ("else_statement", shape elseStatement)]
  | .wait expression stmt =>
    [("expression", shape expression), ("statement", shape stmt)]
  | .timingControl form control count stmt =>
    [("timing_type", shape form), ("control", shape control), ("repeat", shape count),
      ("statement", shape stmt)]
  | .singleAssignment lvalue expression =>
    [("lval", shape lvalue), ("expression", shape expression)]
  | .assignment body => [("kind", shape body)]
  | .block form identifier declarations statements =>
    [("block_type", shape form), ("identifier", shape identifier),
      ("declarations", shape declarations), ("statements", shape statements)]
  | .disable identifier => [("identifier", shape identifier)]
  | .statement attributes isFunction isGenerate data =>
    [("attributes", shape attributes), ("is_function_statement", shape isFunction),
      ("is_generate_statement", shape isGenerate), ("data", shape data)]

/-- The handles in the order of their links. The default item of a case statement is linked as one
of the cases. -/
def links : StatementNode → List AnyHandle
  | .taskEnable identifier expressions _ => held identifier ++ held expressions
  | .loop head body => held head ++ held body
  | .caseItem conditions body _ => held conditions ++ held body
  | .caseStatement expression cases _ _ _ => held expression ++ held cases
  | .conditional condition stmt => held condition ++ held stmt
  | .ifElse branches elseStatement => held branches ++ held elseStatement
  | .wait expression stmt => held expression ++ held stmt
  | .timingControl _ control count stmt => held control ++ held count ++ held stmt
  | .singleAssignment lvalue expression => held lvalue ++ held expression
  | .assignment body => held body
  | .block _ identifier declarations statements =>
    held identifier ++ held declarations ++ held statements
  | .disable identifier => held identifier
  | .statement attributes _ _ data => held attributes ++ held data

end StatementNode

end VerilogTree
