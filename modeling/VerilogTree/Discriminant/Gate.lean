import VerilogTree.Enumeration

/-! # Discriminants of switches, gates and strengths -/

namespace VerilogTree

/-- The families of gate instantiations. -/
inductive GateForm where
  | cmos | mos | pass | passEnable | nInput | enable | nOutput | pullUp | pullDown
deriving DecidableEq

instance : Enumeration GateForm where
  members := [.cmos, .mos, .pass, .passEnable, .nInput, .enable, .nOutput, .pullUp, .pullDown]
  name
    | .cmos => "Cmos"
    | .mos => "Mos"
    | .pass => "Pass"
    | .passEnable => "PassEnable"
    | .nInput => "NInput"
    | .enable => "Enable"
    | .nOutput => "NOutput"
    | .pullUp => "PullUp"
    | .pullDown => "PullDown"

/-- The switches. -/
inductive SwitchForm where
  | cmos | rcmos | nmos | pmos | rnmos | rpmos | tran | rtran
deriving DecidableEq

instance : Enumeration SwitchForm where
  members := [.cmos, .rcmos, .nmos, .pmos, .rnmos, .rpmos, .tran, .rtran]
  name
    | .cmos => "Cmos"
    | .rcmos => "Rcmos"
    | .nmos => "Nmos"
    | .pmos => "Pmos"
    | .rnmos => "Rnmos"
    | .rpmos => "Rpmos"
    | .tran => "Tran"
    | .rtran => "Rtran"

/-- Is the delay of the switch given by two values? It is by three otherwise. -/
def SwitchForm.takesDelay2 : SwitchForm → Bool
  | .tran | .rtran => true
  | _ => false

def SwitchForm.gateForm : SwitchForm → GateForm
  | .cmos | .rcmos => .cmos
  | .nmos | .pmos | .rnmos | .rpmos => .mos
  | .tran | .rtran => .pass

/-- The pass switches with an enable. -/
inductive PassEnableForm where
  | tranif0 | tranif1 | rtranif0 | rtranif1
deriving DecidableEq

instance : Enumeration PassEnableForm where
  members := [.tranif0, .tranif1, .rtranif0, .rtranif1]
  name
    | .tranif0 => "Tranif0"
    | .tranif1 => "Tranif1"
    | .rtranif0 => "Rtranif0"
    | .rtranif1 => "Rtranif1"

/-- The gates with many inputs. -/
inductive NInputForm where
  | and | nand | or | nor | xor | xnor
deriving DecidableEq

instance : Enumeration NInputForm where
  members := [.and, .nand, .or, .nor, .xor, .xnor]
  name
    | .and => "And"
    | .nand => "Nand"
    | .or => "Or"
    | .nor => "Nor"
    | .xor => "Xor"
    | .xnor => "Xnor"

/-- The gates with an enable. -/
inductive EnableForm where
  | bufif0 | bufif1 | notif0 | notif1
deriving DecidableEq

instance : Enumeration EnableForm where
  members := [.bufif0, .bufif1, .notif0, .notif1]
  name
    | .bufif0 => "Bufif0"
    | .bufif1 => "Bufif1"
    | .notif0 => "Notif0"
    | .notif1 => "Notif1"

/-- The gates with many outputs. -/
inductive NOutputForm where
  | buf | not
deriving DecidableEq

instance : Enumeration NOutputForm where
  members := [.buf, .not]
  name
    | .buf => "Buf"
    | .not => "Not"

/-- Which way a pull gate pulls. -/
inductive PullDirection where
  | up | down | none
deriving DecidableEq

instance : Enumeration PullDirection where
  members := [.up, .down, .none]
  name
    | .up => "Up"
    | .down => "Down"
    | .none => "None"

/-- The family of a pull gate; a gate that pulls neither way has none. -/
def PullDirection.gateForm? : PullDirection → Option GateForm
  | .up => some .pullUp
  | .down => some .pullDown
  | .none => Option.none

/-- The strength of a driven value. -/
inductive Strength where
  | supply | strong | pull | weak | highZ | none
deriving DecidableEq

instance : Enumeration Strength where
  members := [.supply, .strong, .pull, .weak, .highZ, .none]
  name
    | .supply => "Supply"
    | .strong => "Strong"
    | .pull => "Pull"
    | .weak => "Weak"
    | .highZ => "HighZ"
    | .none => "None"

/-- The strength of a stored charge. -/
inductive ChargeStrength where
  | small | medium | large
deriving DecidableEq

instance : Enumeration ChargeStrength where
  members := [.small, .medium, .large]
  name
    | .small => "Small"
    | .medium => "Medium"
    | .large => "Large"

end VerilogTree
