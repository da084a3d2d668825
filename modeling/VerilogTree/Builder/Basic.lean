import VerilogTree.Ledger
import VerilogTree.Production.Basic

/-!
# Building a tree

A builder makes nodes from productions and grows the lists of those that can grow. Each node is
given the next id of the ledger, its parts are linked under it in order, and then it is recorded.
When the ledger has no id left, the failure is noted and the node is made with id zero, outside
the ledger.
-/

namespace VerilogTree

structure Builder where
  /-- All nodes, also those of other builders and of released trees. -/
  store : Store := {}
  ledger : Ledger := {}
  /-- The failures since the last release, in order. -/
  failures : List Failure := []

/-- A growing list with what is added to it. -/
inductive Extension where
  /-- An attribute comes first in its list. -/
  | attributeSpec (list : Handle .attributeList) (added : Handle .attributeSpec)
  /-- An item comes first in its concatenation. -/
  | item (concatenation : Handle .concatenation) (added : ConcatenationItem)
  /-- Branches come last in their chain. There may be none to add. -/
  | branches (chain : Handle .ifElse) (added : Option (List (Handle .conditionalStatement)))

namespace Extension

def growth : Extension → Growth
  | .attributeSpec .. => .attributeList
  | .item .. => .concatenation
  | .branches .. => .ifElse

/-- The node that is extended. -/
def target : Extension → AnyHandle
  | .attributeSpec list _ => list.erase
  | .item concatenation _ => concatenation.erase
  | .branches chain _ => chain.erase

/-- The handles that are added. -/
def links : Extension → List AnyHandle
  | .attributeSpec _ added => held added
  | .item _ added => held added
  | .branches _ added => held added

/-- The body of the extended node afterwards. -/
def apply : Extension → Body → Body
  | .attributeSpec _ added, .expression (.attributeList attributes) =>
    .expression (.attributeList (attributes.pushFront added))
  | .item _ added, .expression (.concatenation role count items) =>
    .expression (.concatenation role count (items.pushFront added))
  | .branches _ added, .statement (.ifElse chain elseStatement) =>
    .statement (.ifElse (chain.pushBackAll (added.getD [])) elseStatement)
  | _, body => body

end Extension

namespace Builder

/-- Takes an id for a new node. The id is zero when the ledger has none left. -/
def allocate (b : Builder) : Nat × Builder :=
  match b.ledger.allocate with
  | .ok (id, ledger) => (id, { b with ledger })
  | .error failure => (0, { b with failures := b.failures ++ [failure] })

/-- Adds a node under an id. A node with an id is recorded. -/
def place (b : Builder) (id : Nat) (body : Body) : Builder × Except Misuse NodeRef :=
  let ref : NodeRef := ⟨⟨body.kind, b.store.size⟩, id⟩
  let store := b.store.add ⟨id, body⟩
  if id = 0 then ({ b with store }, .ok ref)
  else match b.ledger.record ref with
    | .ok ledger => ({ b with store, ledger }, .ok ref)
    | .error misuse => (b, .error misuse)

/-- Makes the node of a production. Parts that do not fit together change nothing; a part of a
released tree is found after the id is taken and the parts before it are linked. -/
def construct (b : Builder) (p : Production) : Builder × Except Misuse NodeRef :=
  match p.body b.store with
  | .error misuse => (b, .error misuse)
  | .ok body =>
    let (id, granted) := b.allocate
    match granted.ledger.linkAll id (b.store.idsOf body.links) with
    | (ledger, .error misuse) => ({ granted with ledger }, .error misuse)
    | (ledger, .ok ()) => { granted with ledger }.place id body

/-- Grows a list. The additions are linked under the extended node first, and only then does the
list change. -/
def extend (b : Builder) (e : Extension) : Builder × Except Misuse Unit :=
  let id := b.store.idAt e.target.slot
  if b.ledger.isReleased id then (b, .error (.releasedTarget e.growth id))
  else match b.ledger.linkAll id (b.store.idsOf e.links) with
    | (ledger, .error misuse) => ({ b with ledger }, .error misuse)
    | (ledger, .ok ()) =>
      ({ b with ledger, store := b.store.modify e.target.slot e.apply }, .ok ())

/-- Releases the tree and forgets the failures. Handles stay readable. -/
def releaseAll (b : Builder) : Builder :=
  { b with ledger := b.ledger.releaseAll, failures := [] }

/-- Hands over the ledger, unless something failed on the way. -/
def finish (b : Builder) : Except Failure Ledger :=
  if b.failures.isEmpty then .ok b.ledger else .error (.buildFailed b.failures)

end Builder

end VerilogTree
