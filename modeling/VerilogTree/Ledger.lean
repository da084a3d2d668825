import VerilogTree.Failure
import VerilogTree.Handle
import VerilogTree.Misuse

/-!
# The ledger of ids

A ledger grants ids in order, keeps the node recorded under each, and knows which id was linked
last under which parent. Releasing it forgets all of that and goes on counting where it stopped,
so an id below the first live one is known to be of a released tree. Ids are words, and the count
stops at the last of them: that one is granted again after a release, and no other is.
-/

namespace VerilogTree

/-- Limits of a ledger. -/
structure LedgerConfig where
  /-- How many entries to make room for at the start. -/
  initialCapacity : Nat := 0
  /-- How many ids may be live at once. -/
  nodeLimit : Option Nat := none
deriving DecidableEq

/-- What the ledger knows of one live id. -/
structure Entry where
  id : Nat
  node : Option NodeRef := none
  parent : Option Nat := none
  /-- The ids linked under this one, in the order of their last link. -/
  children : List Nat := []

structure Ledger where
  config : LedgerConfig := {}
  /-- The id of the first entry. All smaller ids but zero are released. -/
  firstId : Nat := 1
  entries : Array Entry := #[]

namespace Ledger

/-- The largest id: ids are words of 32 bits. -/
def maxId : Nat := 0xFFFFFFFF

/-- How many ids are live. -/
def size (l : Ledger) : Nat := l.entries.size

def isEmpty (l : Ledger) : Bool := l.entries.isEmpty

/-- The entry of a live id. -/
def entry? (l : Ledger) (id : Nat) : Option Entry :=
  if l.firstId ≤ id then l.entries[id - l.firstId]? else none

/-- Has the id been granted since the last release? -/
def isLive (l : Ledger) (id : Nat) : Bool := (l.entry? id).isSome

/-- Was the id granted before the last release? -/
def isReleased (l : Ledger) (id : Nat) : Bool := id != 0 && id < l.firstId

/-! ## Changes -/

/-- Replaces the entry of a live id. -/
def modify (l : Ledger) (id : Nat) (f : Entry → Entry) : Ledger :=
  if l.firstId ≤ id then { l with entries := l.entries.modify (id - l.firstId) f } else l

/-- Grants the next id. -/
def allocate (l : Ledger) : Except Failure (Nat × Ledger) :=
  let id := l.firstId + l.size
  if l.config.nodeLimit.any (· ≤ l.size) then
    .error (.nodeLimitExceeded (l.config.nodeLimit.getD 0))
  else if maxId < id then
    .error (.nodeLimitExceeded maxId)
  else
    .ok (id, { l with entries := l.entries.push { id } })

/-- Records a node under its id. -/
def record (l : Ledger) (node : NodeRef) : Except Misuse Ledger :=
  if node.id = 0 then .error .zeroId
  else match l.entry? node.id with
    | none => .error (.notGranted node.id)
    | some entry =>
      if entry.node.isSome then .error (.alreadyRecorded node.id)
      else .ok (l.modify node.id fun e => { e with node := some node })

/-- Makes `child` the last child of `parent`, taking it away from the parent it had. -/
def moveUnder (l : Ledger) (child parent : Nat) : Ledger :=
  let previous := (l.entry? child).bind Entry.parent
  let detached := match previous with
    | none => l
    | some former =>
      l.modify former fun e => { e with children := e.children.filter (· != child) }
  (detached.modify child fun e => { e with parent := some parent }).modify parent
    fun e => { e with children := e.children ++ [child] }

/-- Links a child under a parent. A link to itself or of an id that is not live has no effect; an
id of a released tree is refused. -/
def link (l : Ledger) (child parent : Nat) : Except Misuse Ledger :=
  if l.isReleased child || l.isReleased parent then .error (.releasedLink child parent)
  else if child = parent || !l.isLive parent || !l.isLive child then .ok l
  else .ok (l.moveUnder child parent)

/-- Links children one after the other, up to the first that is refused. -/
def linkAll (l : Ledger) (parent : Nat) : List Nat → Ledger × Except Misuse Unit
  | [] => (l, .ok ())
  | child :: rest =>
    match l.link child parent with
    | .error misuse => (l, .error misuse)
    | .ok linked => linked.linkAll parent rest

/-- Forgets all entries. Their ids are released and are not granted again, but for the last id of
all, past which the count does not go. -/
def releaseAll (l : Ledger) : Ledger :=
  { l with firstId := min (l.firstId + l.size) maxId, entries := #[] }

/-! ## Answers -/

/-- The node recorded under an id. -/
def node? (l : Ledger) (id : Nat) : Option NodeRef := (l.entry? id).bind Entry.node

/-- The parent under which an id was linked last. -/
def parent? (l : Ledger) (id : Nat) : Option Nat := (l.entry? id).bind Entry.parent

/-- The nodes recorded under the children of an id, in the order of their links. -/
def children (l : Ledger) (id : Nat) : List NodeRef :=
  match l.entry? id with
  | none => []
  | some entry => entry.children.filterMap l.node?

/-- The recorded nodes in the order of their ids. -/
def nodes (l : Ledger) : List NodeRef := l.entries.toList.filterMap Entry.node

def nodesOfKind (l : Ledger) (k : Kind) : List NodeRef := l.nodes.filter (·.kind = k)

def sourceTexts (l : Ledger) : List NodeRef := l.nodesOfKind .sourceText

def modules (l : Ledger) : List NodeRef := l.nodesOfKind .moduleDeclaration

/-- The user-defined primitives. -/
def udps (l : Ledger) : List NodeRef := l.nodesOfKind .udpDeclaration

end Ledger

end VerilogTree
