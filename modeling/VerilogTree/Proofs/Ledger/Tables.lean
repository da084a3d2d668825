import Mathlib.Data.List.Basic
import VerilogTree.Proofs.Ledger.Grants

/-!
# A ledger in two tables

A ledger keeps the node of an id in the entry of that id. The nodes may as well be kept apart, in a
table by id beside a table of routes by position. Each operation then works on one of the two
tables and asks the other, and nothing but the operations keeps them in step. They do: a run over
two tables gives the answers that a run over entries gives, and ends in the tables that the
entries split into.
-/

namespace VerilogTree

/-- What the table of routes knows of one live id. -/
structure Route where
  id : Nat
  parent : Option Nat := none
  children : List Nat := []

namespace Route

def setParent (parent : Nat) (r : Route) : Route := { r with parent := some parent }

def dropChild (child : Nat) (r : Route) : Route :=
  { r with children := r.children.filter (· != child) }

def addChild (child : Nat) (r : Route) : Route := { r with children := r.children ++ [child] }

end Route

/-- An entry without its node. -/
def Entry.route (e : Entry) : Route := ⟨e.id, e.parent, e.children⟩

namespace Ledger

structure Tables where
  config : LedgerConfig := {}
  firstId : Nat := 1
  /-- The nodes by their ids. -/
  nodes : Nat → Option NodeRef := fun _ => none
  /-- The routes of the live ids by position. -/
  routes : Array Route := #[]

namespace Tables

/-- The route at the position of an id. -/
def route? (t : Tables) (id : Nat) : Option Route :=
  if t.firstId ≤ id then t.routes[id - t.firstId]? else none

/-- Replaces the route at the position of an id. -/
def reroute (t : Tables) (id : Nat) (f : Route → Route) : Tables :=
  if t.firstId ≤ id then { t with routes := t.routes.modify (id - t.firstId) f } else t

def isReleased (t : Tables) (id : Nat) : Bool := id != 0 && id < t.firstId

def allocate (t : Tables) : Except Failure (Nat × Tables) :=
  let id := t.firstId + t.routes.size
  if t.config.nodeLimit.any (· ≤ t.routes.size) then
    .error (.nodeLimitExceeded (t.config.nodeLimit.getD 0))
  else if maxId < id then
    .error (.nodeLimitExceeded maxId)
  else
    .ok (id, { t with routes := t.routes.push { id } })

/-- Enters a node into the table of nodes. The table of routes says whether its id was granted. -/
def record (t : Tables) (node : NodeRef) : Except Misuse Tables :=
  if node.id = 0 then .error .zeroId
  else if (t.route? node.id).isNone then .error (.notGranted node.id)
  else if (t.nodes node.id).isSome then .error (.alreadyRecorded node.id)
  else .ok { t with nodes := fun id => if id = node.id then some node else t.nodes id }

/-- Links a child under a parent. The child gets its parent first, then the former parent loses
the child, and then the parent gets it. -/
def link (t : Tables) (child parent : Nat) : Except Misuse Tables :=
  if t.isReleased child || t.isReleased parent then .error (.releasedLink child parent)
  else if child = parent || (t.route? parent).isNone then .ok t
  else match t.route? child with
    | none => .ok t
    | some route =>
      let adopted := t.reroute child (.setParent parent)
      let left := match route.parent with
        | none => adopted
        | some former => adopted.reroute former (.dropChild child)
      .ok (left.reroute parent (.addChild child))

/-- Empties both tables. There is nothing to do when no id is live. -/
def releaseAll (t : Tables) : Tables :=
  if t.routes.isEmpty then t
  else
    { t with
      firstId := min (t.firstId + t.routes.size) maxId, nodes := fun _ => none, routes := #[] }

def perform (t : Tables) : Operation → Tables × Answer
  | .allocate =>
    match t.allocate with
    | .ok (id, after) => (after, .granted id)
    | .error failure => (t, .failed failure)
  | .record node =>
    match t.record node with
    | .ok after => (after, .done)
    | .error misuse => (t, .refused misuse)
  | .link child parent =>
    match t.link child parent with
    | .ok after => (after, .done)
    | .error misuse => (t, .refused misuse)
  | .releaseAll => (t.releaseAll, .done)

def run (t : Tables) : List Operation → Tables × List Answer
  | [] => (t, [])
  | op :: rest =>
    let (after, answer) := t.perform op
    let (final, answers) := after.run rest
    (final, answer :: answers)

/-- The nodes in the order of the routes. -/
def listed (t : Tables) : List NodeRef := t.routes.toList.filterMap fun r => t.nodes r.id

/-! ## Changing one route -/

theorem route?_reroute (t : Tables) (id x : Nat) (f : Route → Route) :
    Tables.route? (t.reroute id f) x = if x = id then (t.route? x).map f else t.route? x := by
  unfold reroute
  by_cases hid : t.firstId ≤ id
  · rw [if_pos hid]
    by_cases hx : t.firstId ≤ x
    · have hindex : id - t.firstId = x - t.firstId ↔ x = id := by omega
      simp [hx, route?, Array.getElem?_modify, hindex]
    · have hne : x ≠ id := by omega
      simp [hx, route?, hne]
  · rw [if_neg hid]
    by_cases hx : x = id
    · subst x
      simp [hid, route?]
    · simp [hx]

@[simp] theorem config_reroute (t : Tables) (id : Nat) (f : Route → Route) :
    (t.reroute id f).config = t.config := by
  unfold reroute
  split <;> rfl

@[simp] theorem firstId_reroute (t : Tables) (id : Nat) (f : Route → Route) :
    (t.reroute id f).firstId = t.firstId := by
  unfold reroute
  split <;> rfl

@[simp] theorem nodes_reroute (t : Tables) (id : Nat) (f : Route → Route) :
    (t.reroute id f).nodes = t.nodes := by
  unfold reroute
  split <;> rfl

/-- Two tables are known from their nodes, the first id and the route of every id. -/
theorem eq_of_route? {t t' : Tables} (hconfig : t.config = t'.config)
    (hfirst : t.firstId = t'.firstId) (hnodes : t.nodes = t'.nodes)
    (hroute : ∀ id, t.route? id = t'.route? id) : t = t' := by
  have hroutes : t.routes = t'.routes := by
    apply Array.ext_getElem?
    intro i
    have hi := hroute (t.firstId + i)
    simpa [route?, hfirst] using hi
  cases t
  cases t'
  simp_all

/-- Changes of two routes can be made in either order when they concern different fields. -/
theorem reroute_comm (t : Tables) (i j : Nat) {f g : Route → Route}
    (hcomm : ∀ r, f (g r) = g (f r)) :
    (t.reroute i f).reroute j g = (t.reroute j g).reroute i f := by
  apply eq_of_route?
  · simp
  · simp
  · simp
  · intro x
    simp only [route?_reroute]
    by_cases hi : x = i
    · subst hi
      by_cases hj : x = j
      · subst hj
        cases t.route? x <;> simp [hcomm]
      · simp [hj]
    · simp [hi]

end Tables

/-! ## Entries split into two tables -/

/-- The nodes and the routes of a ledger. -/
def tables (l : Ledger) : Tables where
  config := l.config
  firstId := l.firstId
  nodes := l.node?
  routes := l.entries.map Entry.route

@[simp] theorem config_tables (l : Ledger) : l.tables.config = l.config := rfl

@[simp] theorem firstId_tables (l : Ledger) : l.tables.firstId = l.firstId := rfl

@[simp] theorem nodes_tables (l : Ledger) : l.tables.nodes = l.node? := rfl

@[simp] theorem isReleased_tables (l : Ledger) (id : Nat) :
    l.tables.isReleased id = l.isReleased id :=
  rfl

@[simp] theorem size_routes_tables (l : Ledger) : l.tables.routes.size = l.size := by
  simp [tables, size]

theorem route?_tables (l : Ledger) (id : Nat) :
    l.tables.route? id = (l.entry? id).map Entry.route := by
  unfold Tables.route? entry? tables
  by_cases h : l.firstId ≤ id <;> simp [h]

theorem isNone_route?_tables (l : Ledger) (id : Nat) :
    (l.tables.route? id).isNone = !l.isLive id := by
  rw [route?_tables, isLive]
  cases l.entry? id <;> rfl

theorem tables_modify (l : Ledger) (id : Nat) {f : Entry → Entry} {g : Route → Route}
    (hroute : ∀ e, (f e).route = g e.route) (hnode : ∀ e, (f e).node = e.node) :
    (l.modify id f).tables = l.tables.reroute id g := by
  apply Tables.eq_of_route?
  · simp
  · simp
  · funext x
    simp only [Tables.nodes_reroute, nodes_tables, node?, entry?_modify]
    split
    · cases l.entry? x <;> simp [hnode]
    · rfl
  · intro x
    rw [Tables.route?_reroute, route?_tables, route?_tables, entry?_modify]
    split
    · cases l.entry? x <;> simp [hroute]
    · rfl

/-! ## Operations on the two tables -/

theorem grown_tables (l : Ledger) :
    l.grown.tables = { l.tables with routes := l.tables.routes.push { id := l.nextId } } := by
  have hnode : l.grown.node? = l.node? := funext (node?_grown l)
  have hroutes : l.grown.tables.routes = l.tables.routes.push { id := l.nextId } := by
    simp [tables, grown, Entry.route]
  rw [← hroutes]
  simp only [tables, hnode]
  rfl

theorem withNode_tables {l : Ledger} {node : NodeRef} (hlive : l.isLive node.id = true) :
    (l.withNode node).tables =
      { l.tables with nodes := fun id => if id = node.id then some node else l.node? id } := by
  have hroute : ∀ id, (l.withNode node).tables.route? id = l.tables.route? id := by
    intro id
    rw [route?_tables, route?_tables, withNode, entry?_modify]
    split
    · cases l.entry? id <;> rfl
    · rfl
  apply Tables.eq_of_route?
  · simp
  · simp
  · exact funext (node?_withNode hlive)
  · exact hroute

theorem detach_tables (l : Ledger) (child : Nat) :
    (l.detach child).tables =
      match l.parent? child with
      | none => l.tables
      | some former => l.tables.reroute former (.dropChild child) := by
  unfold detach
  cases l.parent? child with
  | none => rfl
  | some former => exact tables_modify l former (fun _ => rfl) (fun _ => rfl)

/-- The child may get its parent before or after its former parent loses it. -/
theorem moveUnder_tables (l : Ledger) (child parent : Nat) :
    (l.moveUnder child parent).tables =
      (match l.parent? child with
        | none => l.tables.reroute child (.setParent parent)
        | some former =>
          (l.tables.reroute child (.setParent parent)).reroute former (.dropChild child)).reroute
        parent (.addChild child) := by
  have hmoved : (l.moveUnder child parent).tables =
      ((l.detach child).tables.reroute child (.setParent parent)).reroute parent
        (.addChild child) := by
    rw [moveUnder_eq, ← tables_modify (l.detach child) child (f := fun e =>
      { e with parent := some parent }) (fun _ => rfl) (fun _ => rfl)]
    exact tables_modify _ parent (fun _ => rfl) (fun _ => rfl)
  rw [hmoved, detach_tables]
  cases l.parent? child with
  | none => rfl
  | some former =>
      have hcomm : (l.tables.reroute former (.dropChild child)).reroute child (.setParent parent) =
          (l.tables.reroute child (.setParent parent)).reroute former (.dropChild child) :=
        Tables.reroute_comm l.tables former child fun _ => rfl
      simp only [hcomm]

theorem allocate_tables (l : Ledger) :
    l.tables.allocate = l.allocate.map fun granted => (granted.1, granted.2.tables) := by
  have hgrown := grown_tables l
  simp only [grown, nextId] at hgrown
  unfold Tables.allocate allocate
  simp only [size_routes_tables, config_tables, firstId_tables]
  split
  · rfl
  · split
    · rfl
    · rw [Except.map, hgrown]
      rfl

theorem record_tables (l : Ledger) (node : NodeRef) :
    l.tables.record node = (l.record node).map tables := by
  unfold Tables.record
  rw [isNone_route?_tables]
  by_cases hzero : node.id = 0
  · simp [hzero, record, Except.map]
  · cases he : l.entry? node.id with
    | none => simp [hzero, isLive, he, record, Except.map]
    | some e =>
        have hlive := isLive_of_eq_some he
        have hnode : l.tables.nodes node.id = e.node := by simp [node?, he]
        cases hfree : e.node with
        | some other => simp [hzero, hlive, hnode, hfree, he, record, Except.map]
        | none =>
            have hrecord : l.record node = .ok (l.withNode node) :=
              (record_eq_ok_iff l node _).mpr ⟨hzero, hlive, by simp [node?, he, hfree], rfl⟩
            rw [if_neg hzero, if_neg (by simp [hlive]), if_neg (by simp [hnode, hfree]), hrecord]
            exact congrArg Except.ok (withNode_tables hlive).symm

theorem link_tables (l : Ledger) (child parent : Nat) :
    l.tables.link child parent = (l.link child parent).map tables := by
  unfold Tables.link link
  rw [isReleased_tables, isReleased_tables, isNone_route?_tables]
  by_cases hrefused : (l.isReleased child || l.isReleased parent) = true
  · rw [if_pos hrefused, if_pos hrefused]
    rfl
  · rw [if_neg hrefused, if_neg hrefused, route?_tables]
    by_cases hskip : (child = parent || !l.isLive parent) = true
    · simp [hskip, Except.map]
    · cases he : l.entry? child with
      | none => simp [isLive, he, Except.map]
      | some e =>
          have hlive := isLive_of_eq_some he
          have hparent : l.parent? child = e.route.parent := by simp [parent?, he, Entry.route]
          have hmoved := moveUnder_tables l child parent
          rw [hparent] at hmoved
          simp [hskip, hlive, Except.map, hmoved]

/-- A ledger without live ids is as it was after a release. -/
theorem releaseAll_of_isEmpty {l : Ledger} (hfirst : l.firstId ≤ maxId)
    (hempty : l.entries = #[]) : l.releaseAll = l := by
  cases l
  simp_all [releaseAll, size]

theorem releaseAll_tables {l : Ledger} (hfirst : l.firstId ≤ maxId) :
    l.tables.releaseAll = l.releaseAll.tables := by
  have hisEmpty : l.tables.routes.isEmpty = l.entries.isEmpty := by simp [tables, Array.isEmpty]
  unfold Tables.releaseAll
  rw [hisEmpty]
  by_cases hempty : l.entries = #[]
  · rw [if_pos (by simp [hempty]), releaseAll_of_isEmpty hfirst hempty]
  · rw [if_neg (by simpa using hempty)]
    apply Tables.eq_of_route?
    · rfl
    · simp [releaseAll]
    · funext id
      simp [node?]
    · intro id
      rw [route?_tables, entry?_releaseAll]
      simp [Tables.route?]

theorem perform_tables {l : Ledger} (hfirst : l.firstId ≤ maxId) (op : Operation) :
    l.tables.perform op = ((l.perform op).1.tables, (l.perform op).2) := by
  cases op with
  | allocate =>
      rw [Tables.perform, perform, allocate_tables]
      cases l.allocate <;> rfl
  | record node =>
      rw [Tables.perform, perform, record_tables]
      cases l.record node <;> rfl
  | link child parent =>
      rw [Tables.perform, perform, link_tables]
      cases l.link child parent <;> rfl
  | releaseAll =>
      rw [Tables.perform, perform, releaseAll_tables hfirst]

theorem firstId_perform_le {l : Ledger} (hfirst : l.firstId ≤ maxId) (op : Operation) :
    (l.perform op).1.firstId ≤ maxId := by
  have hstep := l.performed op
  generalize l.perform op = result at hstep ⊢
  cases hstep with
  | recorded => simpa using hfirst
  | @moved child parent _ => exact (moveUnder_linksOnly l child parent).firstId ▸ hfirst
  | released => exact Nat.min_le_right _ _
  | granted | full | notRecorded | ignored | notLinked => exact hfirst

/-- Kept in two tables, a ledger gives the same answers all along, and the tables stay those of
its entries. -/
theorem run_tables {l : Ledger} (hfirst : l.firstId ≤ maxId) (ops : List Operation) :
    l.tables.run ops = ((l.run ops).1.tables, (l.run ops).2) := by
  induction ops generalizing l with
  | nil => rfl
  | cons op rest ih =>
      have hrest := ih (firstId_perform_le hfirst op)
      simp only [Tables.run, perform_tables hfirst op, hrest]
      rfl

theorem tables_new (config : LedgerConfig) : Ledger.tables { config } = { config } := by
  apply Tables.eq_of_route?
  · rfl
  · rfl
  · funext id
    simp [node?]
  · intro id
    rw [route?_tables, entry?_new]
    simp [Tables.route?]

/-- The nodes that are listed by way of the routes are all those in the table of nodes. -/
theorem WellFormed.listed_tables {l : Ledger} (h : l.WellFormed) : l.tables.listed = l.nodes := by
  simp only [Tables.listed, tables, nodes, Array.toList_map, List.filterMap_map]
  apply List.filterMap_congr
  intro e he
  obtain ⟨i, hi⟩ := List.mem_iff_getElem?.mp he
  rw [Array.getElem?_toList] at hi
  have hfound : l.entry? (l.firstId + i) = some e := (entry?_add l i).trans hi
  have hid := h.entry_id hfound
  simp [Entry.route, hid, node?, hfound]

end Ledger

end VerilogTree
