/-! # Kinds of nodes -/

namespace VerilogTree

/-- The constructs of the language that have a node of their own. -/
inductive Kind where
  | identifier | identifierNode | attributeSpec | attributeList | attributeNode | number | range
  | lvalue | primary | primaryExpression | unaryExpression | binaryExpression | rangeExpression
  | indexExpression | stringExpression | conditionalExpression | minTypMaxExpression
  | functionCall | concatenation | simpleParallelPathDeclaration | simpleFullPathDeclaration
  | edgeSensitiveParallelPathDeclaration | edgeSensitiveFullPathDeclaration | pathDeclaration
  | taskEnableStatement | loopStatement | caseItem | caseStatement | conditionalStatement
  | ifElse | waitStatement | eventExpression | eventControl | delayValue | delay2 | delay3
  | delayCtrl | timingControlStatement | singleAssignment | assignment | statementBlock
  | disableStatement | statement | udpPort | udpDeclaration | udpInstance | udpInstantiation
  | udpInitialStatement | udpBody | udpCombinatorialEntry | udpSequentialEntry | generateBlock
  | moduleInstantiation | moduleInstance | portConnection | switchGate | driveStrength
  | primitivePullStrength | pullGateInstance | pullGateInstances | passSwitchInstance
  | nInputGateInstance | enableGateInstance | mosSwitchInstance | cmosSwitchInstance
  | passEnableSwitch | passEnableSwitches | nInputGateInstances | enableGateInstances
  | nOutputGateInstance | nOutputGateInstances | switches | gateInstantiation
  | parameterDeclarations | portDeclaration | typeDeclaration | moduleDeclaration | sourceText
deriving DecidableEq

/-- The printed name of a kind. -/
def Kind.name : Kind → String
  | .identifier => "Identifier"
  | .identifierNode => "IdentifierNode"
  | .attributeSpec => "Attribute"
  | .attributeList => "AttributeList"
  | .attributeNode => "AttributeNode"
  | .number => "Number"
  | .range => "Range"
  | .lvalue => "Lvalue"
  | .primary => "Primary"
  | .primaryExpression => "PrimaryExpression"
  | .unaryExpression => "UnaryExpression"
  | .binaryExpression => "BinaryExpression"
  | .rangeExpression => "RangeExpression"
  | .indexExpression => "IndexExpression"
  | .stringExpression => "StringExpression"
  | .conditionalExpression => "ConditionalExpression"
  | .minTypMaxExpression => "MinTypMaxExpression"
  | .functionCall => "FunctionCall"
  | .concatenation => "Concatenation"
  | .simpleParallelPathDeclaration => "SimpleParallelPathDeclaration"
  | .simpleFullPathDeclaration => "SimpleFullPathDeclaration"
  | .edgeSensitiveParallelPathDeclaration => "EdgeSensitiveParallelPathDeclaration"
  | .edgeSensitiveFullPathDeclaration => "EdgeSensitiveFullPathDeclaration"
  | .pathDeclaration => "PathDeclaration"
  | .taskEnableStatement => "TaskEnableStatement"
  | .loopStatement => "LoopStatement"
  | .caseItem => "CaseItem"
  | .caseStatement => "CaseStatement"
  | .conditionalStatement => "ConditionalStatement"
  | .ifElse => "IfElse"
  | .waitStatement => "WaitStatement"
  | .eventExpression => "EventExpression"
  | .eventControl => "EventControl"
  | .delayValue => "DelayValue"
  | .delay2 => "Delay2"
  | .delay3 => "Delay3"
  | .delayCtrl => "DelayCtrl"
  | .timingControlStatement => "TimingControlStatement"
  | .singleAssignment => "SingleAssignment"
  | .assignment => "Assignment"
  | .statementBlock => "StatementBlock"
  | .disableStatement => "DisableStatement"
  | .statement => "Statement"
  | .udpPort => "UdpPort"
  | .udpDeclaration => "UdpDeclaration"
  | .udpInstance => "UdpInstance"
  | .udpInstantiation => "UdpInstantiation"
  | .udpInitialStatement => "UdpInitialStatement"
  | .udpBody => "UdpBody"
  | .udpCombinatorialEntry => "UdpCombinatorialEntry"
  | .udpSequentialEntry => "UdpSequentialEntry"
  | .generateBlock => "GenerateBlock"
  | .moduleInstantiation => "ModuleInstantiation"
  | .moduleInstance => "ModuleInstance"
  | .portConnection => "PortConnection"
  | .switchGate => "SwitchGate"
  | .driveStrength => "DriveStrength"
  | .primitivePullStrength => "PrimitivePullStrength"
  | .pullGateInstance => "PullGateInstance"
  | .pullGateInstances => "PullGateInstances"
  | .passSwitchInstance => "PassSwitchInstance"
  | .nInputGateInstance => "NInputGateInstance"
  | .enableGateInstance => "EnableGateInstance"
  | .mosSwitchInstance => "MosSwitchInstance"
  | .cmosSwitchInstance => "CmosSwitchInstance"
  | .passEnableSwitch => "PassEnableSwitch"
  | .passEnableSwitches => "PassEnableSwitches"
  | .nInputGateInstances => "NInputGateInstances"
  | .enableGateInstances => "EnableGateInstances"
  | .nOutputGateInstance => "NOutputGateInstance"
  | .nOutputGateInstances => "NOutputGateInstances"
  | .switches => "Switches"
  | .gateInstantiation => "GateInstantiation"
  | .parameterDeclarations => "ParameterDeclarations"
  | .portDeclaration => "PortDeclaration"
  | .typeDeclaration => "TypeDeclaration"
  | .moduleDeclaration => "ModuleDeclaration"
  | .sourceText => "SourceText"

end VerilogTree
