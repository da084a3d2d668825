import VerilogTree.Discriminant.Gate
import VerilogTree.Shape

/-! # Gates and switches -/

namespace VerilogTree

/-- The delay of a switch, by two values or by three. -/
inductive SwitchDelay where
  | delay3 (delay : Option (Handle .delay3))
  | delay2 (delay : Option (Handle .delay2))

inductive SwitchInstance where
  | mos (switch : Handle .mosSwitchInstance)
  | cmos (switch : Handle .cmosSwitchInstance)
  | pass (switch : Handle .passSwitchInstance)

/-- The gates of a gate instantiation. -/
inductive GateGroup where
  | switches (switches : Handle .switches)
  | passEnable (switches : Handle .passEnableSwitches)
  | nInput (instances : Handle .nInputGateInstances)
  | enable (instances : Handle .enableGateInstances)
  | nOutput (instances : Handle .nOutputGateInstances)
  | pull (instances : Handle .pullGateInstances)

inductive GateNode where
  | switchGate (form : SwitchForm) (delay : SwitchDelay)
  | driveStrength (strength1 strength0 : Strength)
  | pullStrength (direction : PullDirection) (strength1 strength0 : Strength)
  | pullGate (name : Option (Handle .identifier)) (output : Handle .lvalue)
  | pullGates (direction : PullDirection) (strength : Option (Handle .primitivePullStrength))
      (instances : List (Handle .pullGateInstance))
  | passSwitch (name : Option (Handle .identifier)) (terminal1 terminal2 : Handle .lvalue)
  | nInputGate (name : Option (Handle .identifier)) (inputs : List Expression)
      (output : Handle .lvalue)
  | enableGate (name : Option (Handle .identifier)) (output : Handle .lvalue)
      (enable input : Expression)
  | mosSwitch (name : Option (Handle .identifier)) (output : Handle .lvalue)
      (enable input : Expression)
  | cmosSwitch (name : Option (Handle .identifier)) (output : Handle .lvalue)
      (nControl pControl input : Expression)
  | passEnableSwitch (name : Option (Handle .identifier)) (terminal1 terminal2 : Handle .lvalue)
      (enable : Expression)
  | passEnableSwitches (form : PassEnableForm) (delay : Option (Handle .delay2))
      (switches : List (Handle .passEnableSwitch))
  | nInputGates (form : NInputForm) (delay : Option (Handle .delay3))
      (driveStrength : Option (Handle .driveStrength))
      (instances : List (Handle .nInputGateInstance))
  | enableGates (form : EnableForm) (delay : Option (Handle .delay3))
      (driveStrength : Option (Handle .driveStrength))
      (instances : List (Handle .enableGateInstance))
  | nOutputGate (name : Option (Handle .identifier)) (outputs : List (Handle .lvalue))
      (input : Expression)
  | nOutputGates (form : NOutputForm) (delay : Option (Handle .delay2))
      (driveStrength : Option (Handle .driveStrength))
      (instances : List (Handle .nOutputGateInstance))
  | switches (gate : Handle .switchGate) (switches : List SwitchInstance)
  | instantiation (group : GateGroup)

/-! ## Shapes -/

instance : Shaped SwitchDelay where
  shape
    | .delay3 delay => .tagged "Delay3" (shape delay)
    | .delay2 delay => .tagged "Delay2" (shape delay)

instance : Holds SwitchDelay where
  held
    | .delay3 delay => held delay
    | .delay2 delay => held delay

instance : Shaped SwitchInstance where
  shape
    | .mos h => .tagged "Mos" (shape h)
    | .cmos h => .tagged "Cmos" (shape h)
    | .pass h => .tagged "Pass" (shape h)

instance : Holds SwitchInstance where
  held
    | .mos h => held h
    | .cmos h => held h
    | .pass h => held h

instance : Shaped GateGroup where
  shape
    | .switches h => .tagged "Switches" (shape h)
    | .passEnable h => .tagged "PassEnable" (shape h)
    | .nInput h => .tagged "NInput" (shape h)
    | .enable h => .tagged "Enable" (shape h)
    | .nOutput h => .tagged "NOutput" (shape h)
    | .pull h => .tagged "Pull" (shape h)

instance : Holds GateGroup where
  held
    | .switches h => held h
    | .passEnable h => held h
    | .nInput h => held h
    | .enable h => held h
    | .nOutput h => held h
    | .pull h => held h

namespace GateNode

def kind : GateNode → Kind
  | .switchGate .. => .switchGate
  | .driveStrength .. => .driveStrength
  | .pullStrength .. => .primitivePullStrength
  | .pullGate .. => .pullGateInstance
  | .pullGates .. => .pullGateInstances
  | .passSwitch .. => .passSwitchInstance
  | .nInputGate .. => .nInputGateInstance
  | .enableGate .. => .enableGateInstance
  | .mosSwitch .. => .mosSwitchInstance
  | .cmosSwitch .. => .cmosSwitchInstance
  | .passEnableSwitch .. => .passEnableSwitch
  | .passEnableSwitches .. => .passEnableSwitches
  | .nInputGates .. => .nInputGateInstances
  | .enableGates .. => .enableGateInstances
  | .nOutputGate .. => .nOutputGateInstance
  | .nOutputGates .. => .nOutputGateInstances
  | .switches .. => .switches
  | .instantiation .. => .gateInstantiation

def fields : GateNode → List (String × Shape AnyHandle)
  | .switchGate form delay => [("switch_type", shape form), ("delay", shape delay)]
  | .driveStrength strength1 strength0 =>
    [("strength_1", shape strength1), ("strength_0", shape strength0)]
  | .pullStrength direction strength1 strength0 =>
    [("direction", shape direction), ("strength_1", shape strength1),
      ("strength_0", shape strength0)]
  | .pullGate name output => [("name", shape name), ("output_terminal", shape output)]
  | .pullGates direction strength instances =>
    [("direction", shape direction), ("strength", shape strength), ("instances", shape instances)]
  | .passSwitch name terminal1 terminal2 =>
    [("name", shape name), ("terminal_1", shape terminal1), ("terminal_2", shape terminal2)]
  | .nInputGate name inputs output =>
    [("name", shape name), ("input_terminals", shape inputs), ("output_terminal", shape output)]
  | .enableGate name output enable input =>
    [("name", shape name), ("output_terminal", shape output), ("enable_terminal", shape enable),
      ("input_terminal", shape input)]
  | .mosSwitch name output enable input =>
    [("name", shape name), ("output_terminal", shape output), ("enable_terminal", shape enable),
      ("input_terminal", shape input)]
  | .cmosSwitch name output nControl pControl input =>
    [("name", shape name), ("output_terminal", shape output),
      ("ncontrol_terminal", shape nControl), ("pcontrol_terminal", shape pControl),
      ("input_terminal", shape input)]
  | .passEnableSwitch name terminal1 terminal2 enable =>
    [("name", shape name), ("terminal_1", shape terminal1), ("terminal_2", shape terminal2),
      ("enable", shape enable)]
  | .passEnableSwitches form delay items =>
    [("switch_type", shape form), ("delay", shape delay), ("switches", shape items)]
  | .nInputGates form delay drive instances =>
    [("gate_type", shape form), ("delay", shape delay), ("drive_strength", shape drive),
      ("instances", shape instances)]
  | .enableGates form delay drive instances =>
    [("gate_type", shape form), ("delay", shape delay), ("drive_strength", shape drive),
      ("instances", shape instances)]
  | .nOutputGate name outputs input =>
    [("name", shape name), ("outputs", shape outputs), ("input", shape input)]
  | .nOutputGates form delay drive instances =>
    [("gate_type", shape form), ("delay", shape delay), ("drive_strength", shape drive),
      ("instances", shape instances)]
  | .switches gate items => [("switch_gate", shape gate), ("switches", shape items)]
  | .instantiation group => [("kind", shape group)]

def links : GateNode → List AnyHandle
  | .switchGate _ delay => held delay
  | .driveStrength .. => []
  | .pullStrength .. => []
  | .pullGate name output => held name ++ held output
  | .pullGates _ strength instances => held strength ++ held instances
  | .passSwitch name terminal1 terminal2 => held name ++ held terminal1 ++ held terminal2
  | .nInputGate name inputs output => held name ++ held inputs ++ held output
  | .enableGate name output enable input =>
    held name ++ held output ++ held enable ++ held input
  | .mosSwitch name output enable input => held name ++ held output ++ held enable ++ held input
  | .cmosSwitch name output nControl pControl input =>
    held name ++ held output ++ held nControl ++ held pControl ++ held input
  | .passEnableSwitch name terminal1 terminal2 enable =>
    held name ++ held terminal1 ++ held terminal2 ++ held enable
  | .passEnableSwitches _ delay items => held delay ++ held items
  | .nInputGates _ delay drive instances =>
    held delay ++ held drive ++ held instances
  | .enableGates _ delay drive instances =>
    held delay ++ held drive ++ held instances
  | .nOutputGate name outputs input => held name ++ held outputs ++ held input
  | .nOutputGates _ delay drive instances =>
    held delay ++ held drive ++ held instances
  | .switches gate items => held gate ++ held items
  | .instantiation group => held group

end GateNode

end VerilogTree
