import VerilogTree.Misuse
import VerilogTree.Node.Timing

/-! # Productions of events and delays -/

namespace VerilogTree

inductive TimingProduction where
  | eventExpression (edge : Edge) (expression : Expression)
  | eventSequence (left right : Handle .eventExpression)
  | eventControl (form : EventControlForm) (expression : Option (Handle .eventExpression))
  | delayValue (amount : DelayAmount)
  | delay2 (min max : Option (Handle .delayValue))
  | delay3 (min avg max : Option (Handle .delayValue))
  | delayControlValue (value : Handle .delayValue)
  | delayControlMinTypMax (expression : Expression)

/-- The event of an expression on an edge. No edge is no event. -/
def EventTrigger.onEdge? (expression : Expression) : Edge → Option EventTrigger
  | .positive => some (.posedge expression)
  | .negative => some (.negedge expression)
  | .any => some (.expression expression)
  | .none => none

/-- The node that a production makes. A sequence lists its right event first. -/
def TimingProduction.node : TimingProduction → Except Misuse TimingNode
  | .eventExpression edge expression =>
    match EventTrigger.onEdge? expression edge with
    | some trigger => .ok (.eventExpression trigger)
    | none => .error .noTriggerEdge
  | .eventSequence left right => .ok (.eventExpression (.sequence [right, left]))
  | .eventControl form expression =>
    if form = .any ∧ expression.isSome then .error .implicitEventWithExpression
    else .ok (.eventControl form expression)
  | .delayValue amount => .ok (.delayValue amount)
  | .delay2 min max => .ok (.delay2 min max)
  | .delay3 min avg max => .ok (.delay3 min avg max)
  | .delayControlValue value => .ok (.delayControl (.value value))
  | .delayControlMinTypMax expression => .ok (.delayControl (.minTypMax expression))

end VerilogTree
