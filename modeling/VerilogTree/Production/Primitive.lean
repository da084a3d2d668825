import VerilogTree.Misuse
import VerilogTree.Node.Primitive

/-! # Productions of user-defined primitives -/

namespace VerilogTree

inductive PrimitiveProduction where
  | port (direction : PortDirection) (identifier : Handle .identifier)
      (attributes : Option (Handle .attributeList)) (reg : Bool)
      (defaultValue : Option Expression)
  | inputPort (identifiers : List (Handle .identifier))
      (attributes : Option (Handle .attributeList))
  | declaration (attributes : Option (Handle .attributeList)) (identifier : Handle .identifier)
      (ports : List (Handle .udpPort)) (body : Handle .udpBody)
  | udpInstance (identifier : Option (Handle .identifier)) (range : Option (Handle .range))
      (output : Handle .lvalue) (inputs : List Expression)
  | instantiation (instances : List (Handle .udpInstance)) (identifier : Handle .identifier)
      (driveStrength : Option (Handle .driveStrength)) (delay : Option (Handle .delay2))
  | initialStatement (output : Handle .identifier) (value : Handle .number)
  | sequentialBody (initial : Option (Handle .udpInitialStatement))
      (entries : List (Handle .udpSequentialEntry))
  | combinatorialBody (entries : List (Handle .udpCombinatorialEntry))
  | combinatorialEntry (inputs : List LevelSymbol) (output : NextState)
  | sequentialEntry (form : EntryForm) (symbols : List InputSymbol) (current : LevelSymbol)
      (output : NextState)

def SequentialInputs.ofForm (symbols : List InputSymbol) : EntryForm → SequentialInputs
  | .levels => .levels symbols
  | .edges => .edges symbols

/-- The node that a production makes. Inputs are declared by the list, all else one by one. -/
def PrimitiveProduction.node : PrimitiveProduction → Except Misuse PrimitiveNode
  | .port direction identifier attributes reg defaultValue =>
    if direction.isInput then .error .singleInputPort
    else .ok (.port direction attributes (.single identifier reg defaultValue))
  | .inputPort identifiers attributes => .ok (.port .input attributes (.many identifiers))
  | .declaration attributes identifier ports body =>
    .ok (.declaration attributes identifier ports body)
  | .udpInstance identifier range output inputs =>
    .ok (.udpInstance identifier range output inputs)
  | .instantiation instances identifier driveStrength delay =>
    .ok (.instantiation identifier instances driveStrength delay)
  | .initialStatement output value => .ok (.initialStatement output value)
  | .sequentialBody initial entries => .ok (.body (.sequential initial entries))
  | .combinatorialBody entries => .ok (.body (.combinatorial entries))
  | .combinatorialEntry inputs output => .ok (.combinatorialEntry inputs output)
  | .sequentialEntry form symbols current output =>
    .ok (.sequentialEntry (SequentialInputs.ofForm symbols form) current output)

end VerilogTree
