import VerilogTree.Discriminant.Declaration
import VerilogTree.Shape

/-! # User-defined primitives -/

namespace VerilogTree

/-- The names of a port declaration of a primitive: one output, or any number of inputs. -/
inductive UdpPortNames where
  | single (identifier : Handle .identifier) (reg : Bool) (defaultValue : Option Expression)
  | many (identifiers : List (Handle .identifier))

/-- The table of a primitive. -/
inductive UdpTable where
  | combinatorial (entries : List (Handle .udpCombinatorialEntry))
  | sequential (initial : Option (Handle .udpInitialStatement))
      (entries : List (Handle .udpSequentialEntry))

/-- One column of a sequential entry. -/
inductive InputSymbol where
  | level (level : LevelSymbol)
  | edge (edge : EdgeSymbol)
  | transition (before after : LevelSymbol)

/-- The columns of a sequential entry. -/
inductive SequentialInputs where
  | levels (symbols : List InputSymbol)
  | edges (symbols : List InputSymbol)

inductive PrimitiveNode where
  | port (direction : PortDirection) (attributes : Option (Handle .attributeList))
      (names : UdpPortNames)
  | declaration (attributes : Option (Handle .attributeList)) (identifier : Handle .identifier)
      (ports : List (Handle .udpPort)) (body : Handle .udpBody)
  | udpInstance (identifier : Option (Handle .identifier)) (range : Option (Handle .range))
      (output : Handle .lvalue) (inputs : List Expression)
  | instantiation (identifier : Handle .identifier) (instances : List (Handle .udpInstance))
      (driveStrength : Option (Handle .driveStrength)) (delay : Option (Handle .delay2))
  | initialStatement (output : Handle .identifier) (value : Handle .number)
  | body (table : UdpTable)
  | combinatorialEntry (inputs : List LevelSymbol) (output : NextState)
  | sequentialEntry (inputs : SequentialInputs) (current : LevelSymbol) (output : NextState)

/-! ## Accessors -/

def UdpTable.form : UdpTable → UdpForm
  | .combinatorial _ => .combinatorial
  | .sequential .. => .sequential

def SequentialInputs.form : SequentialInputs → EntryForm
  | .levels _ => .levels
  | .edges _ => .edges

/-! ## Shapes -/

instance : Shaped UdpPortNames where
  shape
    | .single identifier reg defaultValue =>
      .tagged "Single" (.record [("identifier", shape identifier), ("reg", shape reg),
        ("default_value", shape defaultValue)])
    | .many identifiers => .tagged "Many" (shape identifiers)

instance : Shaped UdpTable where
  shape
    | .combinatorial entries => .tagged "Combinatorial" (shape entries)
    | .sequential initial entries =>
      .tagged "Sequential" (.record [("initial", shape initial), ("entries", shape entries)])

instance : Holds UdpTable where
  held
    | .combinatorial entries => held entries
    | .sequential initial entries => held initial ++ held entries

instance : Shaped InputSymbol where
  shape
    | .level level => .tagged "Level" (shape level)
    | .edge edge => .tagged "Edge" (shape edge)
    | .transition before after => .tagged "Transition" (shape [before, after])

instance : Shaped SequentialInputs where
  shape
    | .levels symbols => .tagged "Levels" (shape symbols)
    | .edges symbols => .tagged "Edges" (shape symbols)

namespace PrimitiveNode

def kind : PrimitiveNode → Kind
  | .port .. => .udpPort
  | .declaration .. => .udpDeclaration
  | .udpInstance .. => .udpInstance
  | .instantiation .. => .udpInstantiation
  | .initialStatement .. => .udpInitialStatement
  | .body .. => .udpBody
  | .combinatorialEntry .. => .udpCombinatorialEntry
  | .sequentialEntry .. => .udpSequentialEntry

def fields : PrimitiveNode → List (String × Shape AnyHandle)
  | .port direction attributes names =>
    [("direction", shape direction), ("attributes", shape attributes), ("names", shape names)]
  | .declaration attributes identifier ports table =>
    [("attributes", shape attributes), ("identifier", shape identifier), ("ports", shape ports),
      ("body", shape table)]
  | .udpInstance identifier range output inputs =>
    [("identifier", shape identifier), ("range", shape range), ("output", shape output),
      ("inputs", shape inputs)]
  | .instantiation identifier instances driveStrength delay =>
    [("identifier", shape identifier), ("instances", shape instances),
      ("drive_strength", shape driveStrength), ("delay", shape delay)]
  | .initialStatement output value =>
    [("output_port", shape output), ("initial_value", shape value)]
  | .body table => [("kind", shape table)]
  | .combinatorialEntry inputs output =>
    [("input_levels", shape inputs), ("output_symbol", shape output)]
  | .sequentialEntry inputs current output =>
    [("inputs", shape inputs), ("current_state", shape current), ("output", shape output)]

/-- The handles in the order of their links. The names of a port come before its attributes. -/
def links : PrimitiveNode → List AnyHandle
  | .port _ attributes (.single identifier _ defaultValue) =>
    held identifier ++ held attributes ++ held defaultValue
  | .port _ attributes (.many identifiers) => held identifiers ++ held attributes
  | .declaration attributes identifier ports table =>
    held attributes ++ held identifier ++ held ports ++ held table
  | .udpInstance identifier range output inputs =>
    held identifier ++ held range ++ held output ++ held inputs
  | .instantiation identifier instances driveStrength delay =>
    held identifier ++ held instances ++ held driveStrength ++ held delay
  | .initialStatement output value => held output ++ held value
  | .body table => held table
  | .combinatorialEntry .. => []
  | .sequentialEntry .. => []

end PrimitiveNode

end VerilogTree
