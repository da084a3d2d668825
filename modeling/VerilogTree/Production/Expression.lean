import VerilogTree.Misuse
import VerilogTree.Store

/-! # Productions of names, numbers and expressions -/

namespace VerilogTree

inductive ExpressionProduction where
  | identifier (name : String)
  | identifierNode (identifier : Handle .identifier)
  | attributeSpec (name : Handle .identifier) (value : Option Expression)
  | attributeList (first : Handle .attributeSpec)
  | attributeNode (attributes : Handle .attributeList)
  | number (base : NumberBase) (size : Option Nat) (isSigned : Bool) (digits : String)
  | range (upper lower : Expression)
  | identifierLvalue (form : LvalueForm) (identifier : Handle .identifier)
  | concatenationLvalue (form : LvalueForm) (concatenation : Handle .concatenation)
  | constantPrimary (value : PrimaryValue)
  | primary (value : PrimaryValue)
  | modulePathPrimary (value : PrimaryValue)
  | functionCallPrimary (call : Handle .functionCall)
  | primaryExpression (primary : Handle .primary)
  | unaryExpression (operand : Expression) (operation : Operator)
      (attributes : Option (Handle .attributeList)) (constant : Bool)
  | binaryExpression (left right : Expression) (operation : Operator)
      (attributes : Option (Handle .attributeList)) (constant : Bool)
  | rangeExpression (left right : Expression)
  | indexExpression (index : Expression)
  | stringExpression (value : String)
  | conditionalExpression (condition ifTrue ifFalse : Expression)
      (attributes : Option (Handle .attributeList))
  | minTypMaxExpression (min : Option Expression) (typ : Expression) (max : Option Expression)
  | functionCall (function : Handle .identifier) (constant system : Bool)
      (attributes : Option (Handle .attributeList)) (arguments : Option (List Expression))
  | concatenation (role : ConcatenationRole) (count : Option Expression)
      (first : ConcatenationItem)
  | emptyConcatenation (role : ConcatenationRole)

/-- The target that names an identifier, if the form is one of an identifier. -/
def LvalueTarget.ofIdentifier? (identifier : Handle .identifier) :
    LvalueForm → Option LvalueTarget
  | .netIdentifier => some (.netIdentifier identifier)
  | .varIdentifier => some (.varIdentifier identifier)
  | .genvarIdentifier => some (.genvarIdentifier identifier)
  | .netConcatenation | .varConcatenation => none

/-- The target that names a concatenation, if the form is one of a concatenation. -/
def LvalueTarget.ofConcatenation? (concatenation : Handle .concatenation) :
    LvalueForm → Option LvalueTarget
  | .netConcatenation => some (.netConcatenation concatenation)
  | .varConcatenation => some (.varConcatenation concatenation)
  | .netIdentifier | .varIdentifier | .genvarIdentifier => none

/-- The node that a production makes. A primary expression is constant when its primary is, and an
operator must fit the number of its operands. -/
def ExpressionProduction.node (s : Store) : ExpressionProduction → Except Misuse ExpressionNode
  | .identifier name => .ok (.identifier name)
  | .identifierNode ident => .ok (.identifierNode ident)
  | .attributeSpec name value => .ok (.attributeSpec name value)
  | .attributeList first => .ok (.attributeList (Deque.empty.pushBack first))
  | .attributeNode attributes => .ok (.attributeNode attributes)
  | .number base size isSigned digits => .ok (.number base size isSigned digits)
  | .range upper lower => .ok (.range upper lower)
  | .identifierLvalue form ident =>
    match LvalueTarget.ofIdentifier? ident form with
    | some target => .ok (.lvalue target)
    | none => .error (.identifierLvalue form)
  | .concatenationLvalue form concat =>
    match LvalueTarget.ofConcatenation? concat form with
    | some target => .ok (.lvalue target)
    | none => .error (.concatenationLvalue form)
  | .constantPrimary value => .ok (.primary .constant value)
  | .primary value => .ok (.primary .primary value)
  | .modulePathPrimary value => .ok (.primary .modulePath value)
  | .functionCallPrimary call => .ok (.primary .primary (.functionCall call))
  | .primaryExpression prim => .ok (.primaryExpression prim (s.isConstantPrimary prim))
  | .unaryExpression operand operation attributes constant =>
    if operation.isUnary then .ok (.unaryExpression operation operand attributes constant)
    else .error (.notUnary operation)
  | .binaryExpression left right operation attributes constant =>
    if operation.isBinary then .ok (.binaryExpression left right operation attributes constant)
    else .error (.notBinary operation)
  | .rangeExpression left right => .ok (.rangeExpression left right)
  | .indexExpression index => .ok (.indexExpression index)
  | .stringExpression value => .ok (.stringExpression value)
  | .conditionalExpression condition ifTrue ifFalse attributes =>
    .ok (.conditionalExpression condition ifTrue ifFalse attributes)
  | .minTypMaxExpression min typ max => .ok (.minTypMaxExpression min typ max)
  | .functionCall function constant system attributes arguments =>
    .ok (.functionCall function constant system attributes (arguments.getD []))
  | .concatenation role count first =>
    .ok (.concatenation role count (Deque.empty.pushBack first))
  | .emptyConcatenation role => .ok (.concatenation role none Deque.empty)

end VerilogTree
