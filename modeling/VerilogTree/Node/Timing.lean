import VerilogTree.Discriminant.Statement
import VerilogTree.Shape

/-! # Events and delays -/

namespace VerilogTree

/-- What an event expression waits for. -/
inductive EventTrigger where
  | posedge (expression : Expression)
  | negedge (expression : Expression)
  | expression (expression : Expression)
  /-- Any of several events. -/
  | sequence (events : List (Handle .eventExpression))

/-- How a delay is written. -/
inductive DelayAmount where
  | number (number : Handle .number)
  | parameter (identifier : Handle .identifier)
  | specparam (identifier : Handle .identifier)
  | minTypMax (expression : Expression)

/-- What a delay control waits for. -/
inductive DelaySource where
  | value (value : Handle .delayValue)
  | minTypMax (expression : Expression)

inductive TimingNode where
  | eventExpression (trigger : EventTrigger)
  | eventControl (form : EventControlForm) (expression : Option (Handle .eventExpression))
  | delayValue (amount : DelayAmount)
  | delay2 (min max : Option (Handle .delayValue))
  | delay3 (min avg max : Option (Handle .delayValue))
  | delayControl (source : DelaySource)

/-! ## Accessors -/

def EventTrigger.form : EventTrigger → EventForm
  | .posedge _ => .posedge
  | .negedge _ => .negedge
  | .expression _ => .expression
  | .sequence _ => .sequence

def EventTrigger.expression? : EventTrigger → Option Expression
  | .posedge e | .negedge e | .expression e => some e
  | .sequence _ => none

/-! ## Shapes -/

instance : Shaped EventTrigger where
  shape
    | .posedge e => .tagged "Posedge" (shape e)
    | .negedge e => .tagged "Negedge" (shape e)
    | .expression e => .tagged "Expression" (shape e)
    | .sequence events => .tagged "Sequence" (shape events)

instance : Holds EventTrigger where
  held
    | .posedge e => held e
    | .negedge e => held e
    | .expression e => held e
    | .sequence events => held events

instance : Shaped DelayAmount where
  shape
    | .number h => .tagged "Number" (shape h)
    | .parameter h => .tagged "Parameter" (shape h)
    | .specparam h => .tagged "Specparam" (shape h)
    | .minTypMax e => .tagged "MinTypMax" (shape e)

instance : Holds DelayAmount where
  held
    | .number h => held h
    | .parameter h => held h
    | .specparam h => held h
    | .minTypMax e => held e

instance : Shaped DelaySource where
  shape
    | .value h => .tagged "Value" (shape h)
    | .minTypMax e => .tagged "MinTypMax" (shape e)

instance : Holds DelaySource where
  held
    | .value h => held h
    | .minTypMax e => held e

namespace TimingNode

def kind : TimingNode → Kind
  | .eventExpression .. => .eventExpression
  | .eventControl .. => .eventControl
  | .delayValue .. => .delayValue
  | .delay2 .. => .delay2
  | .delay3 .. => .delay3
  | .delayControl .. => .delayCtrl

def fields : TimingNode → List (String × Shape AnyHandle)
  | .eventExpression trigger => [("kind", shape trigger)]
  | .eventControl form expression =>
    [("control_type", shape form), ("expression", shape expression)]
  | .delayValue amount => [("value", shape amount)]
  | .delay2 min max => [("min", shape min), ("max", shape max)]
  | .delay3 min avg max => [("min", shape min), ("avg", shape avg), ("max", shape max)]
  | .delayControl source => [("kind", shape source)]

def links : TimingNode → List AnyHandle
  | .eventExpression trigger => held trigger
  | .eventControl _ expression => held expression
  | .delayValue amount => held amount
  | .delay2 min max => held min ++ held max
  | .delay3 min avg max => held min ++ held avg ++ held max
  | .delayControl source => held source

end TimingNode

end VerilogTree
