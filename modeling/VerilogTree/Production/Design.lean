import VerilogTree.Node.Design

/-! # Productions of declarations, modules and source texts -/

namespace VerilogTree

inductive DesignProduction where
  | generateBlock (identifier : Option (Handle .identifier)) (items : List (Handle .statement))
  | moduleInstantiation (identifier : Handle .identifier)
      (parameters : List (Handle .portConnection)) (instances : List (Handle .moduleInstance))
  | moduleInstance (identifier : Handle .identifier)
      (connections : List (Handle .portConnection))
  | namedPortConnection (port : Handle .identifier) (expression : Option Expression)
  | orderedPortConnection (expression : Option Expression)
  | parameterDeclarations (assignments : List (Handle .singleAssignment))
      (isSigned isLocal : Bool) (range : Option (Handle .range)) (form : ParameterForm)
  | portDeclaration (direction : PortDirection) (netType : NetType)
      (isSigned isReg isVariable : Bool) (range : Option (Handle .range))
      (names : List (Handle .identifier))
  | typeDeclaration (form : DeclarationForm) (identifiers : List (Handle .identifier))
      (modifiers : TypeModifiers)
  | moduleDeclaration (attributes : Option (Handle .attributeList))
      (identifier : Handle .identifier) (parameters : List (Handle .parameterDeclarations))
      (ports : List (Handle .portDeclaration)) (items : List ModuleItem)
  | sourceText (descriptions : List Description)

/-- The node that a production makes. Only generic parameters have a sign and a range. -/
def DesignProduction.node : DesignProduction → DesignNode
  | .generateBlock identifier items => .generateBlock identifier items
  | .moduleInstantiation identifier parameters instances =>
    .moduleInstantiation identifier parameters instances
  | .moduleInstance identifier connections => .moduleInstance identifier connections
  | .namedPortConnection port expression => .portConnection (some port) expression
  | .orderedPortConnection expression => .portConnection none expression
  | .parameterDeclarations assignments isSigned isLocal range form =>
    if form.isGeneric then .parameterDeclarations form assignments isSigned isLocal range
    else .parameterDeclarations form assignments false isLocal none
  | .portDeclaration direction netType isSigned isReg isVariable range names =>
    .portDeclaration direction netType isSigned isReg isVariable range names
  | .typeDeclaration form identifiers modifiers => .typeDeclaration form identifiers modifiers
  | .moduleDeclaration attributes identifier parameters ports items =>
    .moduleDeclaration attributes identifier parameters ports items
  | .sourceText descriptions => .sourceText descriptions

end VerilogTree
