import VerilogTree.Discriminant.Declaration
import VerilogTree.Discriminant.Gate
import VerilogTree.Shape

/-! # Declarations, modules and source texts -/

namespace VerilogTree

/-- What may stand around the names of a type declaration. -/
structure TypeModifiers where
  delay : Option (Handle .delay3) := none
  driveStrength : Option (Handle .driveStrength) := none
  chargeStrength : Option ChargeStrength := none
  range : Option (Handle .range) := none
  vectored : Bool := false
  scalared : Bool := false
  isSigned : Bool := false
  netType : NetType := default

/-- An item of a module. -/
inductive ModuleItem where
  | port (declaration : Handle .portDeclaration)
  | parameters (declarations : Handle .parameterDeclarations)
  | type (declaration : Handle .typeDeclaration)
  | continuousAssignment (assignment : Handle .assignment)
  | gateInstantiation (instantiation : Handle .gateInstantiation)
  | udpInstantiation (instantiation : Handle .udpInstantiation)
  | moduleInstantiation (instantiation : Handle .moduleInstantiation)
  | generateBlock (block : Handle .generateBlock)
  | initial (statement : Handle .statement)
  | always (statement : Handle .statement)
  | pathDeclaration (declaration : Handle .pathDeclaration)

/-- An item of a source text. -/
inductive Description where
  | moduleDeclaration (declaration : Handle .moduleDeclaration)
  | udp (declaration : Handle .udpDeclaration)

inductive DesignNode where
  | generateBlock (identifier : Option (Handle .identifier)) (items : List (Handle .statement))
  | moduleInstantiation (identifier : Handle .identifier)
      (parameters : List (Handle .portConnection)) (instances : List (Handle .moduleInstance))
  | moduleInstance (identifier : Handle .identifier)
      (connections : List (Handle .portConnection))
  | portConnection (port : Option (Handle .identifier)) (expression : Option Expression)
  | parameterDeclarations (form : ParameterForm) (assignments : List (Handle .singleAssignment))
      (isSigned isLocal : Bool) (range : Option (Handle .range))
  | portDeclaration (direction : PortDirection) (netType : NetType)
      (isSigned isReg isVariable : Bool) (range : Option (Handle .range))
      (names : List (Handle .identifier))
  | typeDeclaration (form : DeclarationForm) (identifiers : List (Handle .identifier))
      (modifiers : TypeModifiers)
  | moduleDeclaration (attributes : Option (Handle .attributeList))
      (identifier : Handle .identifier) (parameters : List (Handle .parameterDeclarations))
      (ports : List (Handle .portDeclaration)) (items : List ModuleItem)
  | sourceText (descriptions : List Description)

/-! ## Accessors -/

def Description.module? : Description → Option (Handle .moduleDeclaration)
  | .moduleDeclaration h => some h
  | .udp _ => none

def Description.udp? : Description → Option (Handle .udpDeclaration)
  | .udp h => some h
  | .moduleDeclaration _ => none

/-! ## Shapes -/

instance : Shaped ModuleItem where
  shape
    | .port h => .tagged "Port" (shape h)
    | .parameters h => .tagged "Parameters" (shape h)
    | .type h => .tagged "Type" (shape h)
    | .continuousAssignment h => .tagged "ContinuousAssignment" (shape h)
    | .gateInstantiation h => .tagged "GateInstantiation" (shape h)
    | .udpInstantiation h => .tagged "UdpInstantiation" (shape h)
    | .moduleInstantiation h => .tagged "ModuleInstantiation" (shape h)
    | .generateBlock h => .tagged "GenerateBlock" (shape h)
    | .initial h => .tagged "Initial" (shape h)
    | .always h => .tagged "Always" (shape h)
    | .pathDeclaration h => .tagged "PathDeclaration" (shape h)

instance : Holds ModuleItem where
  held
    | .port h => held h
    | .parameters h => held h
    | .type h => held h
    | .continuousAssignment h => held h
    | .gateInstantiation h => held h
    | .udpInstantiation h => held h
    | .moduleInstantiation h => held h
    | .generateBlock h => held h
    | .initial h => held h
    | .always h => held h
    | .pathDeclaration h => held h

instance : Shaped Description where
  shape
    | .moduleDeclaration h => .tagged "Module" (shape h)
    | .udp h => .tagged "Udp" (shape h)

instance : Holds Description where
  held
    | .moduleDeclaration h => held h
    | .udp h => held h

namespace DesignNode

def kind : DesignNode → Kind
  | .generateBlock .. => .generateBlock
  | .moduleInstantiation .. => .moduleInstantiation
  | .moduleInstance .. => .moduleInstance
  | .portConnection .. => .portConnection
  | .parameterDeclarations .. => .parameterDeclarations
  | .portDeclaration .. => .portDeclaration
  | .typeDeclaration .. => .typeDeclaration
  | .moduleDeclaration .. => .moduleDeclaration
  | .sourceText .. => .sourceText

def fields : DesignNode → List (String × Shape AnyHandle)
  | .generateBlock identifier items =>
    [("identifier", shape identifier), ("generate_items", shape items)]
  | .moduleInstantiation identifier parameters instances =>
    [("module_identifier", shape identifier), ("module_parameters", shape parameters),
      ("module_instances", shape instances)]
  | .moduleInstance identifier connections =>
    [("instance_identifier", shape identifier), ("port_connections", shape connections)]
  | .portConnection port expression =>
    [("port_name", shape port), ("expression", shape expression)]
  | .parameterDeclarations form assignments isSigned isLocal range =>
    [("parameter_type", shape form), ("assignments", shape assignments),
      ("signed_values", shape isSigned), ("local", shape isLocal), ("range", shape range)]
  | .portDeclaration direction netType isSigned isReg isVariable range names =>
    [("direction", shape direction), ("net_type", shape netType), ("net_signed", shape isSigned),
      ("is_reg", shape isReg), ("is_variable", shape isVariable), ("range", shape range),
      ("port_names", shape names)]
  | .typeDeclaration form identifiers modifiers =>
    [("declaration_type", shape form), ("identifiers", shape identifiers),
      ("delay", shape modifiers.delay), ("drive_strength", shape modifiers.driveStrength),
      ("charge_strength", shape modifiers.chargeStrength), ("range", shape modifiers.range),
      ("vectored", shape modifiers.vectored), ("scalared", shape modifiers.scalared),
      ("is_signed", shape modifiers.isSigned), ("net_type", shape modifiers.netType)]
  | .moduleDeclaration attributes identifier parameters ports items =>
    [("attributes", shape attributes), ("identifier", shape identifier),
      ("parameters", shape parameters), ("ports", shape ports), ("items", shape items)]
  | .sourceText descriptions => [("descriptions", shape descriptions)]

def links : DesignNode → List AnyHandle
  | .generateBlock identifier items => held identifier ++ held items
  | .moduleInstantiation identifier parameters instances =>
    held identifier ++ held parameters ++ held instances
  | .moduleInstance identifier connections => held identifier ++ held connections
  | .portConnection port expression => held port ++ held expression
  | .parameterDeclarations _ assignments _ _ range => held assignments ++ held range
  | .portDeclaration _ _ _ _ _ range names => held range ++ held names
  | .typeDeclaration _ identifiers modifiers =>
    held identifiers ++ held modifiers.delay ++ held modifiers.driveStrength ++
      held modifiers.range
  | .moduleDeclaration attributes identifier parameters ports items =>
    held attributes ++ held identifier ++ held parameters ++ held ports ++ held items
  | .sourceText descriptions => held descriptions

end DesignNode

end VerilogTree
