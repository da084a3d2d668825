import VerilogTree.Enumeration

/-! # Discriminants of declarations and primitives -/

namespace VerilogTree

/-- The direction of a port. -/
inductive PortDirection where
  | input | output | inout | none
deriving DecidableEq

instance : Enumeration PortDirection where
  members := [.input, .output, .inout, .none]
  name
    | .input => "Input"
    | .output => "Output"
    | .inout => "Inout"
    | .none => "None"

def PortDirection.isInput : PortDirection → Bool
  | .input => true
  | _ => false

/-- The type of declared parameters. -/
inductive ParameterForm where
  | generic | integer | real | realtime | time
deriving DecidableEq

instance : Enumeration ParameterForm where
  members := [.generic, .integer, .real, .realtime, .time]
  name
    | .generic => "Generic"
    | .integer => "Integer"
    | .real => "Real"
    | .realtime => "Realtime"
    | .time => "Time"

def ParameterForm.isGeneric : ParameterForm → Bool
  | .generic => true
  | _ => false

/-- The type of a net. -/
inductive NetType where
  | supply0 | supply1 | tri | triand | trior | trireg | tri0 | tri1 | uwire | wire | wand | wor
  | none
deriving DecidableEq

instance : Enumeration NetType where
  members := [
    .supply0, .supply1, .tri, .triand, .trior, .trireg, .tri0, .tri1, .uwire, .wire, .wand, .wor,
    .none]
  name
    | .supply0 => "Supply0"
    | .supply1 => "Supply1"
    | .tri => "Tri"
    | .triand => "Triand"
    | .trior => "Trior"
    | .trireg => "Trireg"
    | .tri0 => "Tri0"
    | .tri1 => "Tri1"
    | .uwire => "Uwire"
    | .wire => "Wire"
    | .wand => "Wand"
    | .wor => "Wor"
    | .none => "None"

instance : Inhabited NetType := ⟨.none⟩

/-- What a type declaration declares. -/
inductive DeclarationForm where
  | net | reg | genvar | integer | real | realtime | time | event | specparam
deriving DecidableEq

instance : Enumeration DeclarationForm where
  members := [.net, .reg, .genvar, .integer, .real, .realtime, .time, .event, .specparam]
  name
    | .net => "Net"
    | .reg => "Reg"
    | .genvar => "Genvar"
    | .integer => "Integer"
    | .real => "Real"
    | .realtime => "Realtime"
    | .time => "Time"
    | .event => "Event"
    | .specparam => "Specparam"

/-- The two forms of a user-defined primitive. -/
inductive UdpForm where
  | combinatorial | sequential
deriving DecidableEq

instance : Enumeration UdpForm where
  members := [.combinatorial, .sequential]
  name
    | .combinatorial => "Combinatorial"
    | .sequential => "Sequential"

/-- A level in the table of a primitive. -/
inductive LevelSymbol where
  | zero | one | x | question | b
deriving DecidableEq

instance : Enumeration LevelSymbol where
  members := [.zero, .one, .x, .question, .b]
  name
    | .zero => "Zero"
    | .one => "One"
    | .x => "X"
    | .question => "Question"
    | .b => "B"

/-- An edge in the table of a primitive. -/
inductive EdgeSymbol where
  | rise | fall | positive | negative | any
deriving DecidableEq

instance : Enumeration EdgeSymbol where
  members := [.rise, .fall, .positive, .negative, .any]
  name
    | .rise => "Rise"
    | .fall => "Fall"
    | .positive => "Positive"
    | .negative => "Negative"
    | .any => "Any"

/-- The next state in the table of a primitive. -/
inductive NextState where
  | zero | one | x | unchanged
deriving DecidableEq

instance : Enumeration NextState where
  members := [.zero, .one, .x, .unchanged]
  name
    | .zero => "Zero"
    | .one => "One"
    | .x => "X"
    | .unchanged => "Unchanged"

/-- What the inputs of a sequential entry are. -/
inductive EntryForm where
  | levels | edges
deriving DecidableEq

instance : Enumeration EntryForm where
  members := [.levels, .edges]
  name
    | .levels => "Levels"
    | .edges => "Edges"

end VerilogTree
