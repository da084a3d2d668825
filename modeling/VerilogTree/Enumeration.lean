/-! # Enumerations with printed names -/

namespace VerilogTree

/-- A finite type whose members have printed names. -/
class Enumeration (α : Type) where
  members : List α
  name : α → String

namespace Enumeration

/-- The member that has a given name. -/
def ofName? {α : Type} [Enumeration α] (text : String) : Option α :=
  members.find? fun a => name a == text

end Enumeration

end VerilogTree
