import VerilogTree.Enumeration

/-! # Discriminants of names, numbers and expressions -/

namespace VerilogTree

/-- The operators of unary and binary expressions. -/
inductive Operator where
  | plus | minus | star | div | mod | pow | logicalNot | logicalAnd | logicalOr | bitwiseNot
  | bitwiseAnd | bitwiseOr | bitwiseXor | bitwiseXnor | reductionNand | reductionNor | lt | gt
  | lte | gte | eq | notEq | caseEq | caseNotEq | shl | shr | arithShl | arithShr
deriving DecidableEq

instance : Enumeration Operator where
  members := [
    .plus, .minus, .star, .div, .mod, .pow, .logicalNot, .logicalAnd, .logicalOr, .bitwiseNot,
    .bitwiseAnd, .bitwiseOr, .bitwiseXor, .bitwiseXnor, .reductionNand, .reductionNor, .lt, .gt,
    .lte, .gte, .eq, .notEq, .caseEq, .caseNotEq, .shl, .shr, .arithShl, .arithShr]
  name
    | .plus => "Plus"
    | .minus => "Minus"
    | .star => "Star"
    | .div => "Div"
    | .mod => "Mod"
    | .pow => "Pow"
    | .logicalNot => "LogicalNot"
    | .logicalAnd => "LogicalAnd"
    | .logicalOr => "LogicalOr"
    | .bitwiseNot => "BitwiseNot"
    | .bitwiseAnd => "BitwiseAnd"
    | .bitwiseOr => "BitwiseOr"
    | .bitwiseXor => "BitwiseXor"
    | .bitwiseXnor => "BitwiseXnor"
    | .reductionNand => "ReductionNand"
    | .reductionNor => "ReductionNor"
    | .lt => "Lt"
    | .gt => "Gt"
    | .lte => "Lte"
    | .gte => "Gte"
    | .eq => "Eq"
    | .notEq => "NotEq"
    | .caseEq => "CaseEq"
    | .caseNotEq => "CaseNotEq"
    | .shl => "Shl"
    | .shr => "Shr"
    | .arithShl => "ArithShl"
    | .arithShr => "ArithShr"

/-- Can the operator stand before a single operand? The bitwise and, or, xor and xnor are then
reductions. -/
def Operator.isUnary : Operator → Bool
  | .plus | .minus | .logicalNot | .bitwiseNot | .bitwiseAnd | .bitwiseOr | .bitwiseXor
  | .bitwiseXnor | .reductionNand | .reductionNor => true
  | _ => false

/-- Can the operator stand between two operands? -/
def Operator.isBinary : Operator → Bool
  | .logicalNot | .bitwiseNot | .reductionNand | .reductionNor => false
  | _ => true

/-- What an assignment target names. -/
inductive LvalueForm where
  | netIdentifier | varIdentifier | genvarIdentifier | netConcatenation | varConcatenation
deriving DecidableEq

instance : Enumeration LvalueForm where
  members := [
    .netIdentifier, .varIdentifier, .genvarIdentifier, .netConcatenation, .varConcatenation]
  name
    | .netIdentifier => "NetIdentifier"
    | .varIdentifier => "VarIdentifier"
    | .genvarIdentifier => "GenvarIdentifier"
    | .netConcatenation => "NetConcatenation"
    | .varConcatenation => "VarConcatenation"

def LvalueForm.isIdentifier : LvalueForm → Bool
  | .netIdentifier | .varIdentifier | .genvarIdentifier => true
  | _ => false

def LvalueForm.isConcatenation : LvalueForm → Bool
  | .netConcatenation | .varConcatenation => true
  | _ => false

/-- Where a primary may stand. -/
inductive PrimaryRole where
  | constant | primary | modulePath
deriving DecidableEq

instance : Enumeration PrimaryRole where
  members := [.constant, .primary, .modulePath]
  name
    | .constant => "Constant"
    | .primary => "Primary"
    | .modulePath => "ModulePath"

/-- What a primary consists of. -/
inductive PrimaryForm where
  | number | identifier | concatenation | functionCall | minTypMax
deriving DecidableEq

instance : Enumeration PrimaryForm where
  members := [.number, .identifier, .concatenation, .functionCall, .minTypMax]
  name
    | .number => "Number"
    | .identifier => "Identifier"
    | .concatenation => "Concatenation"
    | .functionCall => "FunctionCall"
    | .minTypMax => "MinTypMax"

/-- The eight forms of an expression. -/
inductive ExpressionForm where
  | primary | unary | binary | rangeUpDown | rangeIndex | conditional | minTypMax | string
deriving DecidableEq

instance : Enumeration ExpressionForm where
  members := [
    .primary, .unary, .binary, .rangeUpDown, .rangeIndex, .conditional, .minTypMax, .string]
  name
    | .primary => "Primary"
    | .unary => "Unary"
    | .binary => "Binary"
    | .rangeUpDown => "RangeUpDown"
    | .rangeIndex => "RangeIndex"
    | .conditional => "Conditional"
    | .minTypMax => "MinTypMax"
    | .string => "String"

/-- The base in which a number is written. -/
inductive NumberBase where
  | binary | octal | decimal | hex | real
deriving DecidableEq

instance : Enumeration NumberBase where
  members := [.binary, .octal, .decimal, .hex, .real]
  name
    | .binary => "Binary"
    | .octal => "Octal"
    | .decimal => "Decimal"
    | .hex => "Hex"
    | .real => "Real"

/-- What the items of a concatenation are. -/
inductive ConcatenationRole where
  | expression | constantExpression | net | variable | modulePath
deriving DecidableEq

instance : Enumeration ConcatenationRole where
  members := [.expression, .constantExpression, .net, .variable, .modulePath]
  name
    | .expression => "Expression"
    | .constantExpression => "ConstantExpression"
    | .net => "Net"
    | .variable => "Variable"
    | .modulePath => "ModulePath"

end VerilogTree
