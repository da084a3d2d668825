import VerilogTree.Shape

/-!
# Names, numbers and expressions

For each kind there are the fields in the order in which they are shown and compared, and the
handles in the order in which they are linked when the node is made.
-/

namespace VerilogTree

/-- What a primary consists of. -/
inductive PrimaryValue where
  | number (number : Handle .number)
  | identifier (identifier : Handle .identifier)
  | concatenation (concatenation : Handle .concatenation)
  | functionCall (call : Handle .functionCall)
  | minTypMax (expression : Expression)

/-- An item between the braces of a concatenation. -/
inductive ConcatenationItem where
  | expression (expression : Expression)
  | lvalue (lvalue : Handle .lvalue)
  | concatenation (concatenation : Handle .concatenation)

/-- What an assignment target names. -/
inductive LvalueTarget where
  | netIdentifier (identifier : Handle .identifier)
  | varIdentifier (identifier : Handle .identifier)
  | genvarIdentifier (identifier : Handle .identifier)
  | netConcatenation (concatenation : Handle .concatenation)
  | varConcatenation (concatenation : Handle .concatenation)

inductive ExpressionNode where
  | identifier (name : String)
  | identifierNode (identifier : Handle .identifier)
  | attributeSpec (name : Handle .identifier) (value : Option Expression)
  | attributeList (attributes : Deque (Handle .attributeSpec))
  | attributeNode (attributes : Handle .attributeList)
  | number (base : NumberBase) (size : Option Nat) (isSigned : Bool) (digits : String)
  | range (upper lower : Expression)
  | lvalue (target : LvalueTarget)
  | primary (role : PrimaryRole) (value : PrimaryValue)
  | primaryExpression (primary : Handle .primary) (constant : Bool)
  | unaryExpression (operation : Operator) (operand : Expression)
      (attributes : Option (Handle .attributeList)) (constant : Bool)
  | binaryExpression (left right : Expression) (operation : Operator)
      (attributes : Option (Handle .attributeList)) (constant : Bool)
  | rangeExpression (left right : Expression)
  | indexExpression (index : Expression)
  | stringExpression (value : String)
  | conditionalExpression (condition ifTrue ifFalse : Expression)
      (attributes : Option (Handle .attributeList))
  | minTypMaxExpression (min : Option Expression) (typ : Expression) (max : Option Expression)
  | functionCall (function : Handle .identifier) (constant system : Bool)
      (attributes : Option (Handle .attributeList)) (arguments : List Expression)
  | concatenation (role : ConcatenationRole) (count : Option Expression)
      (items : Deque ConcatenationItem)

/-! ## Accessors -/

def PrimaryValue.form : PrimaryValue → PrimaryForm
  | .number _ => .number
  | .identifier _ => .identifier
  | .concatenation _ => .concatenation
  | .functionCall _ => .functionCall
  | .minTypMax _ => .minTypMax

def PrimaryRole.isConstant : PrimaryRole → Bool
  | .constant => true
  | _ => false

def LvalueTarget.form : LvalueTarget → LvalueForm
  | .netIdentifier _ => .netIdentifier
  | .varIdentifier _ => .varIdentifier
  | .genvarIdentifier _ => .genvarIdentifier
  | .netConcatenation _ => .netConcatenation
  | .varConcatenation _ => .varConcatenation

def LvalueTarget.identifier? : LvalueTarget → Option (Handle .identifier)
  | .netIdentifier h | .varIdentifier h | .genvarIdentifier h => some h
  | .netConcatenation _ | .varConcatenation _ => none

def LvalueTarget.concatenation? : LvalueTarget → Option (Handle .concatenation)
  | .netConcatenation h | .varConcatenation h => some h
  | .netIdentifier _ | .varIdentifier _ | .genvarIdentifier _ => none

/-- Is an expression known to be constant? Strings always are; ranges, indices, conditionals and
min-typ-max triples never are. -/
def ExpressionNode.isConstant : ExpressionNode → Bool
  | .primaryExpression _ constant => constant
  | .unaryExpression _ _ _ constant => constant
  | .binaryExpression _ _ _ _ constant => constant
  | .stringExpression _ => true
  | _ => false

/-! ## Shapes -/

instance : Shaped PrimaryValue where
  shape
    | .number h => .tagged "Number" (shape h)
    | .identifier h => .tagged "Identifier" (shape h)
    | .concatenation h => .tagged "Concatenation" (shape h)
    | .functionCall h => .tagged "FunctionCall" (shape h)
    | .minTypMax e => .tagged "MinTypMax" (shape e)

instance : Shaped ConcatenationItem where
  shape
    | .expression e => .tagged "Expression" (shape e)
    | .lvalue h => .tagged "Lvalue" (shape h)
    | .concatenation h => .tagged "Concatenation" (shape h)

instance : Shaped LvalueTarget where
  shape
    | .netIdentifier h => .tagged "NetIdentifier" (shape h)
    | .varIdentifier h => .tagged "VarIdentifier" (shape h)
    | .genvarIdentifier h => .tagged "GenvarIdentifier" (shape h)
    | .netConcatenation h => .tagged "NetConcatenation" (shape h)
    | .varConcatenation h => .tagged "VarConcatenation" (shape h)

instance : Holds PrimaryValue where
  held
    | .number h => held h
    | .identifier h => held h
    | .concatenation h => held h
    | .functionCall h => held h
    | .minTypMax e => held e

instance : Holds ConcatenationItem where
  held
    | .expression e => held e
    | .lvalue h => held h
    | .concatenation h => held h

instance : Holds LvalueTarget where
  held
    | .netIdentifier h => held h
    | .varIdentifier h => held h
    | .genvarIdentifier h => held h
    | .netConcatenation h => held h
    | .varConcatenation h => held h

namespace ExpressionNode

def kind : ExpressionNode → Kind
  | .identifier .. => .identifier
  | .identifierNode .. => .identifierNode
  | .attributeSpec .. => .attributeSpec
  | .attributeList .. => .attributeList
  | .attributeNode .. => .attributeNode
  | .number .. => .number
  | .range .. => .range
  | .lvalue .. => .lvalue
  | .primary .. => .primary
  | .primaryExpression .. => .primaryExpression
  | .unaryExpression .. => .unaryExpression
  | .binaryExpression .. => .binaryExpression
  | .rangeExpression .. => .rangeExpression
  | .indexExpression .. => .indexExpression
  | .stringExpression .. => .stringExpression
  | .conditionalExpression .. => .conditionalExpression
  | .minTypMaxExpression .. => .minTypMaxExpression
  | .functionCall .. => .functionCall
  | .concatenation .. => .concatenation

def fields : ExpressionNode → List (String × Shape AnyHandle)
  | .identifier name => [("name", shape name)]
  | .identifierNode ident => [("identifier", shape ident)]
  | .attributeSpec name value => [("name", shape name), ("value", shape value)]
  | .attributeList attributes => [("attributes", shape attributes)]
  | .attributeNode attributes => [("attributes", shape attributes)]
  | .number base size isSigned digits =>
    [("base", shape base), ("size", shape size), ("is_signed", shape isSigned),
      ("digits", shape digits)]
  | .range upper lower => [("upper", shape upper), ("lower", shape lower)]
  | .lvalue target => [("target", shape target)]
  | .primary role value => [("primary_type", shape role), ("value", shape value)]
  | .primaryExpression prim constant =>
    [("primary", shape prim), ("constant", shape constant)]
  | .unaryExpression operation operand attributes constant =>
    [("operation", shape operation), ("operand", shape operand), ("attributes", shape attributes),
      ("constant", shape constant)]
  | .binaryExpression left right operation attributes constant =>
    [("left", shape left), ("right", shape right), ("operation", shape operation),
      ("attributes", shape attributes), ("constant", shape constant)]
  | .rangeExpression left right => [("left", shape left), ("right", shape right)]
  | .indexExpression index => [("index", shape index)]
  | .stringExpression value => [("value", shape value)]
  | .conditionalExpression condition ifTrue ifFalse attributes =>
    [("condition", shape condition), ("if_true", shape ifTrue), ("if_false", shape ifFalse),
      ("attributes", shape attributes)]
  | .minTypMaxExpression min typ max =>
    [("min", shape min), ("typ", shape typ), ("max", shape max)]
  | .functionCall function constant system attributes arguments =>
    [("function", shape function), ("constant", shape constant), ("system", shape system),
      ("attributes", shape attributes), ("arguments", shape arguments)]
  | .concatenation role count items =>
    [("concatenation_type", shape role), ("repeat", shape count), ("items", shape items)]

def links : ExpressionNode → List AnyHandle
  | .identifier _ => []
  | .identifierNode ident => held ident
  | .attributeSpec name value => held name ++ held value
  | .attributeList attributes => held attributes
  | .attributeNode attributes => held attributes
  | .number .. => []
  | .range upper lower => held upper ++ held lower
  | .lvalue target => held target
  | .primary _ value => held value
  | .primaryExpression prim _ => held prim
  | .unaryExpression _ operand attributes _ => held operand ++ held attributes
  | .binaryExpression left right _ attributes _ => held left ++ held right ++ held attributes
  | .rangeExpression left right => held left ++ held right
  | .indexExpression index => held index
  | .stringExpression _ => []
  | .conditionalExpression condition ifTrue ifFalse attributes =>
    held condition ++ held ifTrue ++ held ifFalse ++ held attributes
  | .minTypMaxExpression min typ max => held min ++ held typ ++ held max
  | .functionCall function _ _ attributes arguments =>
    held function ++ held attributes ++ held arguments
  | .concatenation _ count items => held count ++ held items

end ExpressionNode

end VerilogTree
