import VerilogTree.Misuse
import VerilogTree.Node.Gate

/-! # Productions of gates and switches -/

namespace VerilogTree

inductive GateProduction where
  | switchGateDelay3 (form : SwitchForm) (delay : Option (Handle .delay3))
  | switchGateDelay2 (form : SwitchForm) (delay : Option (Handle .delay2))
  | switches (gate : Handle .switchGate) (switches : List SwitchInstance)
  | pullStrength (direction : PullDirection) (strength1 strength0 : Strength)
  | driveStrength (strength1 strength0 : Strength)
  | pullGate (name : Option (Handle .identifier)) (output : Handle .lvalue)
  | pullGates (direction : PullDirection) (strength : Option (Handle .primitivePullStrength))
      (instances : List (Handle .pullGateInstance))
  | passSwitch (name : Option (Handle .identifier)) (terminal1 terminal2 : Handle .lvalue)
  | nInputGate (name : Option (Handle .identifier)) (inputs : List Expression)
      (output : Handle .lvalue)
  | enableGate (name : Option (Handle .identifier)) (output : Handle .lvalue)
      (enable input : Expression)
  | mosSwitch (name : Option (Handle .identifier)) (output : Handle .lvalue)
      (enable input : Expression)
  | cmosSwitch (name : Option (Handle .identifier)) (output : Handle .lvalue)
      (nControl pControl input : Expression)
  | passEnableSwitch (name : Option (Handle .identifier)) (terminal1 terminal2 : Handle .lvalue)
      (enable : Expression)
  | passEnableSwitches (form : PassEnableForm) (delay : Option (Handle .delay2))
      (switches : List (Handle .passEnableSwitch))
  | nInputGates (form : NInputForm) (delay : Option (Handle .delay3))
      (driveStrength : Option (Handle .driveStrength))
      (instances : List (Handle .nInputGateInstance))
  | enableGates (form : EnableForm) (delay : Option (Handle .delay3))
      (driveStrength : Option (Handle .driveStrength))
      (instances : List (Handle .enableGateInstance))
  | nOutputGate (name : Option (Handle .identifier)) (outputs : List (Handle .lvalue))
      (input : Expression)
  | nOutputGates (form : NOutputForm) (delay : Option (Handle .delay2))
      (driveStrength : Option (Handle .driveStrength))
      (instances : List (Handle .nOutputGateInstance))
  | instantiation (group : GateGroup)

/-- The node that a production makes. The delay of a switch gate must have as many values as its
form asks for, and pull gates must pull one way. -/
def GateProduction.node : GateProduction → Except Misuse GateNode
  | .switchGateDelay3 form delay =>
    if form.takesDelay2 then .error (.takesDelay2 form)
    else .ok (.switchGate form (.delay3 delay))
  | .switchGateDelay2 form delay =>
    if form.takesDelay2 then .ok (.switchGate form (.delay2 delay))
    else .error (.takesDelay3 form)
  | .switches gate items => .ok (.switches gate items)
  | .pullStrength direction strength1 strength0 =>
    .ok (.pullStrength direction strength1 strength0)
  | .driveStrength strength1 strength0 => .ok (.driveStrength strength1 strength0)
  | .pullGate name output => .ok (.pullGate name output)
  | .pullGates direction strength instances =>
    if direction = .none then .error .noPullDirection
    else .ok (.pullGates direction strength instances)
  | .passSwitch name terminal1 terminal2 => .ok (.passSwitch name terminal1 terminal2)
  | .nInputGate name inputs output => .ok (.nInputGate name inputs output)
  | .enableGate name output enable input => .ok (.enableGate name output enable input)
  | .mosSwitch name output enable input => .ok (.mosSwitch name output enable input)
  | .cmosSwitch name output nControl pControl input =>
    .ok (.cmosSwitch name output nControl pControl input)
  | .passEnableSwitch name terminal1 terminal2 enable =>
    .ok (.passEnableSwitch name terminal1 terminal2 enable)
  | .passEnableSwitches form delay items => .ok (.passEnableSwitches form delay items)
  | .nInputGates form delay drive instances =>
    .ok (.nInputGates form delay drive instances)
  | .enableGates form delay drive instances =>
    .ok (.enableGates form delay drive instances)
  | .nOutputGate name outputs input => .ok (.nOutputGate name outputs input)
  | .nOutputGates form delay drive instances =>
    .ok (.nOutputGates form delay drive instances)
  | .instantiation group => .ok (.instantiation group)

end VerilogTree
