import VerilogTree.Discriminant.Statement
import VerilogTree.Shape

/-! # Specify paths -/

namespace VerilogTree

/-- When a path applies. -/
inductive PathCondition where
  | unconditional
  | when (condition : Expression)
  | otherwise

/-- The path of a path declaration. -/
inductive PathDescriptor where
  | simpleParallel (path : Handle .simpleParallelPathDeclaration)
  | simpleFull (path : Handle .simpleFullPathDeclaration)
  | edgeSensitiveParallel (path : Handle .edgeSensitiveParallelPathDeclaration)
  | edgeSensitiveFull (path : Handle .edgeSensitiveFullPathDeclaration)

inductive PathNode where
  | simpleParallel (input : Handle .identifier) (polarity : Option Polarity)
      (output : Handle .identifier) (delay : List Expression)
  | simpleFull (inputs : List (Handle .identifier)) (polarity : Option Polarity)
      (outputs : List (Handle .identifier)) (delay : List Expression)
  | edgeSensitiveParallel (edge : Edge) (input : Handle .identifier) (polarity : Option Polarity)
      (output : Handle .identifier) (source : Expression) (delay : List Expression)
  | edgeSensitiveFull (edge : Edge) (inputs : List (Handle .identifier))
      (polarity : Option Polarity) (outputs : List (Handle .identifier)) (source : Expression)
      (delay : List Expression)
  | declaration (condition : PathCondition) (path : PathDescriptor)

/-! ## Accessors -/

def PathDescriptor.form : PathDescriptor → PathForm
  | .simpleParallel _ => .simpleParallel
  | .simpleFull _ => .simpleFull
  | .edgeSensitiveParallel _ => .edgeSensitiveParallel
  | .edgeSensitiveFull _ => .edgeSensitiveFull

def PathCondition.isStateDependent : PathCondition → Bool
  | .unconditional => false
  | _ => true

/-! ## Shapes -/

instance : Shaped PathCondition where
  shape
    | .unconditional => .word "Unconditional"
    | .when condition => .tagged "If" (shape condition)
    | .otherwise => .word "IfNone"

instance : Holds PathCondition where
  held
    | .when condition => held condition
    | .unconditional | .otherwise => []

instance : Shaped PathDescriptor where
  shape
    | .simpleParallel h => .tagged "SimpleParallel" (shape h)
    | .simpleFull h => .tagged "SimpleFull" (shape h)
    | .edgeSensitiveParallel h => .tagged "EdgeSensitiveParallel" (shape h)
    | .edgeSensitiveFull h => .tagged "EdgeSensitiveFull" (shape h)

instance : Holds PathDescriptor where
  held
    | .simpleParallel h => held h
    | .simpleFull h => held h
    | .edgeSensitiveParallel h => held h
    | .edgeSensitiveFull h => held h

namespace PathNode

def kind : PathNode → Kind
  | .simpleParallel .. => .simpleParallelPathDeclaration
  | .simpleFull .. => .simpleFullPathDeclaration
  | .edgeSensitiveParallel .. => .edgeSensitiveParallelPathDeclaration
  | .edgeSensitiveFull .. => .edgeSensitiveFullPathDeclaration
  | .declaration .. => .pathDeclaration

def fields : PathNode → List (String × Shape AnyHandle)
  | .simpleParallel input polarity output delay =>
    [("input_terminal", shape input), ("polarity", shape polarity),
      ("output_terminal", shape output), ("delay_value", shape delay)]
  | .simpleFull inputs polarity outputs delay =>
    [("input_terminals", shape inputs), ("polarity", shape polarity),
      ("output_terminals", shape outputs), ("delay_value", shape delay)]
  | .edgeSensitiveParallel edge input polarity output source delay =>
    [("edge", shape edge), ("input_terminal", shape input), ("polarity", shape polarity),
      ("output_terminal", shape output), ("data_source", shape source),
      ("delay_value", shape delay)]
  | .edgeSensitiveFull edge inputs polarity outputs source delay =>
    [("edge", shape edge), ("input_terminals", shape inputs), ("polarity", shape polarity),
      ("output_terminals", shape outputs), ("data_source", shape source),
      ("delay_value", shape delay)]
  | .declaration condition path => [("condition", shape condition), ("path", shape path)]

def links : PathNode → List AnyHandle
  | .simpleParallel input _ output delay => held input ++ held output ++ held delay
  | .simpleFull inputs _ outputs delay => held inputs ++ held outputs ++ held delay
  | .edgeSensitiveParallel _ input _ output source delay =>
    held input ++ held output ++ held source ++ held delay
  | .edgeSensitiveFull _ inputs _ outputs source delay =>
    held inputs ++ held outputs ++ held source ++ held delay
  | .declaration condition path => held condition ++ held path

end PathNode

end VerilogTree
