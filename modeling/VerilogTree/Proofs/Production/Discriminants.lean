import VerilogTree.Proofs.Production.Handles

/-!
# Discriminants that do not fit

Twelve productions are given a discriminant of which not every value fits their other parts. Whether
it fits is told by the production alone: a node is made of the parts, or one misuse is found, in
every store alike.
-/

namespace VerilogTree

/-! ## What is wrong with a production -/

def ExpressionProduction.misfit? : ExpressionProduction → Option Misuse
  | .identifierLvalue form _ => if form.isIdentifier then none else some (.identifierLvalue form)
  | .concatenationLvalue form _ =>
    if form.isConcatenation then none else some (.concatenationLvalue form)
  | .unaryExpression _ operation _ _ =>
    if operation.isUnary then none else some (.notUnary operation)
  | .binaryExpression _ _ operation _ _ =>
    if operation.isBinary then none else some (.notBinary operation)
  | _ => none

def TimingProduction.misfit? : TimingProduction → Option Misuse
  | .eventExpression edge _ => if edge = .none then some .noTriggerEdge else none
  | .eventControl form expression =>
    if form = .any ∧ expression.isSome then some .implicitEventWithExpression else none
  | _ => none

def StatementProduction.misfit? : StatementProduction → Option Misuse
  | .delayTiming form _ _ => if form = .delayControl then none else some (.delayTiming form)
  | .eventTiming form _ _ _ => if form.isEventControl then none else some (.eventTiming form)
  | _ => none

def PrimitiveProduction.misfit? : PrimitiveProduction → Option Misuse
  | .port direction _ _ _ _ => if direction.isInput then some .singleInputPort else none
  | _ => none

def GateProduction.misfit? : GateProduction → Option Misuse
  | .switchGateDelay3 form _ => if form.takesDelay2 then some (.takesDelay2 form) else none
  | .switchGateDelay2 form _ => if form.takesDelay2 then none else some (.takesDelay3 form)
  | .pullGates direction _ _ => if direction = .none then some .noPullDirection else none
  | _ => none

/-- What is wrong with the discriminant of a production, if anything. -/
def Production.misfit? : Production → Option Misuse
  | .expression production => production.misfit?
  | .path _ => none
  | .timing production => production.misfit?
  | .statement production => production.misfit?
  | .primitive production => production.misfit?
  | .gate production => production.misfit?
  | .design _ => none

/-! ## It is what the making of the node finds -/

section

variable {s : Store} {misuse : Misuse}

theorem ExpressionProduction.node_eq_error_iff (p : ExpressionProduction) :
    p.node s = .error misuse ↔ p.misfit? = some misuse := by
  cases p with
  | identifierLvalue form ident =>
      cases form <;> simp [node, misfit?, LvalueTarget.ofIdentifier?, LvalueForm.isIdentifier]
  | concatenationLvalue form concat =>
      cases form <;> simp [node, misfit?, LvalueTarget.ofConcatenation?, LvalueForm.isConcatenation]
  | unaryExpression operand operation attributes constant =>
      cases hunary : operation.isUnary <;> simp [node, misfit?, hunary]
  | binaryExpression left right operation attributes constant =>
      cases hbinary : operation.isBinary <;> simp [node, misfit?, hbinary]
  | _ => simp [node, misfit?]

theorem TimingProduction.node_eq_error_iff (p : TimingProduction) :
    p.node = .error misuse ↔ p.misfit? = some misuse := by
  cases p with
  | eventExpression edge expression =>
      cases edge <;> simp [node, misfit?, EventTrigger.onEdge?]
  | eventControl form expression =>
      by_cases himplicit : form = .any ∧ expression.isSome <;> simp [node, misfit?, himplicit]
  | _ => simp [node, misfit?]

theorem StatementProduction.node_eq_error_iff (p : StatementProduction) :
    p.node s = .error misuse ↔ p.misfit? = some misuse := by
  cases p with
  | delayTiming form stmt control =>
      by_cases hdelay : form = .delayControl <;> simp [node, misfit?, hdelay]
  | eventTiming form count stmt control =>
      cases hevent : form.isEventControl <;> simp [node, misfit?, hevent]
  | _ => simp [node, misfit?]

theorem PrimitiveProduction.node_eq_error_iff (p : PrimitiveProduction) :
    p.node = .error misuse ↔ p.misfit? = some misuse := by
  cases p with
  | port direction identifier attributes reg defaultValue =>
      cases hinput : direction.isInput <;> simp [node, misfit?, hinput]
  | _ => simp [node, misfit?]

theorem GateProduction.node_eq_error_iff (p : GateProduction) :
    p.node = .error misuse ↔ p.misfit? = some misuse := by
  cases p with
  | switchGateDelay3 form delay =>
      cases hdelay : form.takesDelay2 <;> simp [node, misfit?, hdelay]
  | switchGateDelay2 form delay =>
      cases hdelay : form.takesDelay2 <;> simp [node, misfit?, hdelay]
  | pullGates direction strength instances =>
      by_cases hnone : direction = .none <;> simp [node, misfit?, hnone]
  | _ => simp [node, misfit?]

theorem Production.body_eq_error_iff (p : Production) :
    p.body s = .error misuse ↔ p.misfit? = some misuse := by
  cases p with
  | expression p => exact map_eq_error_iff.trans p.node_eq_error_iff
  | timing p => exact map_eq_error_iff.trans p.node_eq_error_iff
  | statement p => exact map_eq_error_iff.trans p.node_eq_error_iff
  | primitive p => exact map_eq_error_iff.trans p.node_eq_error_iff
  | gate p => exact map_eq_error_iff.trans p.node_eq_error_iff
  | path node => simp [body, misfit?]
  | design p => simp [body, misfit?]

/-- A discriminant that fits is all that a production needs. -/
theorem Production.exists_body (s : Store) {p : Production} (h : p.misfit? = none) :
    ∃ body, p.body s = .ok body := by
  cases hbody : p.body s with
  | ok body => exact ⟨body, rfl⟩
  | error misuse =>
      rw [p.body_eq_error_iff, h] at hbody
      cases hbody

end

/-- A misfit is no matter of links. -/
theorem Production.misfit?_ne_releasedLink (p : Production) (c i : Nat) :
    p.misfit? ≠ some (.releasedLink c i) := by
  intro h
  cases p with
  | path node => cases h
  | design p => cases h
  | _ p => cases p <;> simp [misfit?, ExpressionProduction.misfit?, TimingProduction.misfit?,
      StatementProduction.misfit?, PrimitiveProduction.misfit?, GateProduction.misfit?] at h

end VerilogTree
