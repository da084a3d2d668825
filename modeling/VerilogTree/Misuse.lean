import VerilogTree.Discriminant.Expression
import VerilogTree.Discriminant.Statement
import VerilogTree.Discriminant.Gate

/-!
# Misuse

A misuse is a call that breaks the contract of the ledger or of the builder: a discriminant that
does not fit the other arguments, an id that cannot be recorded, a node of a released tree. The
call stops there, and what it did before stays done.
-/

namespace VerilogTree

/-- The growable lists, by the call that extends them. -/
inductive Growth where
  | attributeList | concatenation | ifElse
deriving DecidableEq

def Growth.name : Growth → String
  | .attributeList => "extend_attribute_list"
  | .concatenation => "extend_concatenation"
  | .ifElse => "extend_if_else"

/-- The ways in which a call can be wrong. -/
inductive Misuse where
  /-- A node without an id cannot be recorded. -/
  | zeroId
  /-- The id to record under is not one that the ledger has granted since its last release. -/
  | notGranted (id : Nat)
  /-- There is a node under that id already. -/
  | alreadyRecorded (id : Nat)
  /-- One end of a link belongs to a released tree. -/
  | releasedLink (child parent : Nat)
  /-- The node to extend belongs to a released tree. -/
  | releasedTarget (growth : Growth) (id : Nat)
  | identifierLvalue (form : LvalueForm)
  | concatenationLvalue (form : LvalueForm)
  | notUnary (operation : Operator)
  | notBinary (operation : Operator)
  | noTriggerEdge
  | implicitEventWithExpression
  | delayTiming (form : TimingForm)
  | eventTiming (form : TimingForm)
  | singleInputPort
  | takesDelay2 (form : SwitchForm)
  | takesDelay3 (form : SwitchForm)
  | noPullDirection
deriving DecidableEq

open Enumeration in
def Misuse.message : Misuse → String
  | .zeroId => "Node ID must be non-zero"
  | .notGranted id => s!"Node ID {id} was not allocated by this arena"
  | .alreadyRecorded id => s!"Node with ID {id} already exists in the arena"
  | .releasedLink child parent =>
    s!"cannot link node {child} to node {parent}: a node of a released tree was passed in"
  | .releasedTarget growth id => growth.name ++ s!" was handed node {id} from a released tree"
  | .identifierLvalue form => "new_lvalue_id expects an identifier lvalue kind, got " ++ name form
  | .concatenationLvalue form =>
    "new_lvalue_concat expects a concatenation lvalue kind, got " ++ name form
  | .notUnary operation => name operation ++ " is not a unary operator"
  | .notBinary operation => name operation ++ " is not a binary operator"
  | .noTriggerEdge => "new_event_expression requires a trigger edge, got Edge::None"
  | .implicitEventWithExpression =>
    "an implicit `@*` event control cannot carry an event expression"
  | .delayTiming form =>
    "new_timing_control_statement_delay expects DelayControl, got " ++ name form
  | .eventTiming form =>
    "new_timing_control_statement_event expects an event control kind, got " ++ name form
  | .singleInputPort => "UDP input ports must be built with new_udp_input_port"
  | .takesDelay2 form => name form ++ " takes a delay2, use new_switch_gate_d2"
  | .takesDelay3 form => name form ++ " takes a delay3, use new_switch_gate_d3"
  | .noPullDirection => "pull gates must pull up or down"

end VerilogTree
