import VerilogTree.Ledger

/-!
# Look-ups in a ledger

What granting an id, recording a node and releasing do to the entry of every id. An entry is seen
through its node, its parent and its children.
-/

namespace VerilogTree.Ledger

/-- The ids linked under an id, recorded or not, in the order of their links. -/
def childIds (l : Ledger) (id : Nat) : List Nat := (l.entry? id).elim [] Entry.children

/-! ## Live ids -/

theorem isLive_iff (l : Ledger) (id : Nat) :
    l.isLive id = true ↔ l.firstId ≤ id ∧ id < l.firstId + l.size := by
  unfold isLive entry? size
  by_cases h : l.firstId ≤ id
  · have hindex : id - l.firstId < l.entries.size ↔ id < l.firstId + l.entries.size := by omega
    simp [h, hindex]
  · simp [h]

theorem isReleased_iff (l : Ledger) (id : Nat) :
    l.isReleased id = true ↔ id ≠ 0 ∧ id < l.firstId := by
  simp [isReleased]

theorem isReleased_eq_false {l : Ledger} {id : Nat} (h : id ≠ 0 → l.isLive id = true) :
    l.isReleased id = false := by
  rw [← Bool.not_eq_true, isReleased_iff]
  rintro ⟨hid, hlt⟩
  have hlive := (l.isLive_iff id).mp (h hid)
  omega

theorem entry?_eq_none_of_not_isLive {l : Ledger} {id : Nat} (h : l.isLive id = false) :
    l.entry? id = none := by
  simpa [isLive] using h

theorem exists_entry_of_isLive {l : Ledger} {id : Nat} (h : l.isLive id = true) :
    ∃ e, l.entry? id = some e :=
  Option.isSome_iff_exists.mp h

theorem isLive_of_eq_some {l : Ledger} {id : Nat} {e : Entry} (h : l.entry? id = some e) :
    l.isLive id = true := by
  simp [isLive, h]

/-- Only a live id has a parent. -/
theorem isLive_of_parent? {l : Ledger} {c p : Nat} (h : l.parent? c = some p) :
    l.isLive c = true := by
  obtain ⟨e, he, -⟩ := Option.bind_eq_some_iff.mp h
  exact isLive_of_eq_some he

theorem entry?_add (l : Ledger) (i : Nat) : l.entry? (l.firstId + i) = l.entries[i]? := by
  unfold entry?
  simp

@[simp] theorem entry?_new (config : LedgerConfig) (id : Nat) :
    Ledger.entry? { config } id = none := by
  unfold entry?
  simp

/-- A ledger is known from its configuration, the range of its live ids and their entries. -/
theorem eq_of_entry? {l l' : Ledger} (hconfig : l.config = l'.config)
    (hfirst : l.firstId = l'.firstId) (hentry : ∀ id, l.entry? id = l'.entry? id) : l = l' := by
  have hentries : l.entries = l'.entries := by
    apply Array.ext_getElem?
    intro i
    rw [← entry?_add l i, ← entry?_add l' i, ← hfirst]
    exact hentry (l.firstId + i)
  cases l
  cases l'
  simp_all

/-! ## Changing one entry -/

theorem entry?_modify (l : Ledger) (id x : Nat) (f : Entry → Entry) :
    Ledger.entry? (l.modify id f) x = if x = id then (l.entry? x).map f else l.entry? x := by
  unfold modify
  by_cases hid : l.firstId ≤ id
  · rw [if_pos hid]
    by_cases hx : l.firstId ≤ x
    · have hindex : id - l.firstId = x - l.firstId ↔ x = id := by omega
      simp [hx, entry?, Array.getElem?_modify, hindex]
    · have hne : x ≠ id := by omega
      simp [hx, entry?, hne]
  · rw [if_neg hid]
    by_cases hx : x = id
    · subst x
      simp [hid, entry?]
    · simp [hx]

@[simp] theorem config_modify (l : Ledger) (id : Nat) (f : Entry → Entry) :
    (l.modify id f).config = l.config := by
  unfold modify
  split <;> rfl

@[simp] theorem firstId_modify (l : Ledger) (id : Nat) (f : Entry → Entry) :
    (l.modify id f).firstId = l.firstId := by
  unfold modify
  split <;> rfl

@[simp] theorem size_modify (l : Ledger) (id : Nat) (f : Entry → Entry) :
    (l.modify id f).size = l.size := by
  unfold modify
  split <;> simp [size]

/-! ## Granting an id -/

/-- The id that is granted next. -/
def nextId (l : Ledger) : Nat := l.firstId + l.size

/-- The ledger with one more id granted. -/
def grown (l : Ledger) : Ledger := { l with entries := l.entries.push { id := l.nextId } }

/-- May another id be granted? -/
def hasRoom (l : Ledger) : Prop := (∀ limit ∈ l.config.nodeLimit, l.size < limit) ∧ l.nextId ≤ maxId

theorem allocate_of_hasRoom {l : Ledger} (h : l.hasRoom) :
    l.allocate = .ok (l.nextId, l.grown) := by
  obtain ⟨hlimit, hmax⟩ := h
  have hroom : l.config.nodeLimit.any (· ≤ l.size) = false := by
    cases hl : l.config.nodeLimit with
    | none => rfl
    | some limit => simpa using hlimit limit (by simp [hl])
  unfold nextId at hmax
  simp [allocate, hroom, grown, nextId, Nat.not_lt.mpr hmax]

theorem allocate_of_not_hasRoom {l : Ledger} (h : ¬ l.hasRoom) :
    ∃ failure, l.allocate = .error failure := by
  unfold allocate
  by_cases hlimit : l.config.nodeLimit.any (· ≤ l.size) = true
  · exact ⟨_, by rw [if_pos hlimit]⟩
  · by_cases hmax : maxId < l.firstId + l.size
    · exact ⟨_, by rw [if_neg hlimit, if_pos hmax]⟩
    · refine absurd ⟨?_, Nat.not_lt.mp hmax⟩ h
      intro limit hl
      simpa [Option.mem_def.mp hl] using hlimit

@[simp] theorem config_grown (l : Ledger) : l.grown.config = l.config := rfl

@[simp] theorem firstId_grown (l : Ledger) : l.grown.firstId = l.firstId := rfl

@[simp] theorem size_grown (l : Ledger) : l.grown.size = l.size + 1 := by
  simp [grown, size]

theorem entry?_grown (l : Ledger) (x : Nat) :
    l.grown.entry? x = if x = l.nextId then some { id := l.nextId } else l.entry? x := by
  unfold entry? grown nextId size
  by_cases hx : l.firstId ≤ x
  · have hindex : x - l.firstId = l.entries.size ↔ x = l.firstId + l.entries.size := by omega
    simp [hx, Array.getElem?_push, hindex]
  · have hne : x ≠ l.firstId + l.entries.size := by omega
    simp [hx, hne]

theorem entry?_nextId (l : Ledger) : l.entry? l.nextId = none := by
  apply entry?_eq_none_of_not_isLive
  rw [← Bool.not_eq_true, isLive_iff, nextId]
  omega

@[simp] theorem node?_grown (l : Ledger) (x : Nat) : l.grown.node? x = l.node? x := by
  simp only [node?, entry?_grown]
  split
  · simp [*, entry?_nextId]
  · rfl

@[simp] theorem parent?_grown (l : Ledger) (x : Nat) : l.grown.parent? x = l.parent? x := by
  simp only [parent?, entry?_grown]
  split
  · simp [*, entry?_nextId]
  · rfl

@[simp] theorem childIds_grown (l : Ledger) (x : Nat) : l.grown.childIds x = l.childIds x := by
  simp only [childIds, entry?_grown]
  split
  · simp [*, entry?_nextId]
  · rfl

/-! ## Recording a node -/

/-- The ledger with a node recorded under its id. -/
def withNode (l : Ledger) (node : NodeRef) : Ledger :=
  l.modify node.id fun e => { e with node := some node }

theorem record_eq_ok_iff (l : Ledger) (node : NodeRef) (after : Ledger) :
    l.record node = .ok after ↔
      node.id ≠ 0 ∧ l.isLive node.id = true ∧ l.node? node.id = none ∧ after = l.withNode node := by
  unfold record
  by_cases hzero : node.id = 0
  · simp [hzero]
  · simp only [hzero, if_false, isLive, node?, withNode]
    cases he : l.entry? node.id with
    | none => simp
    | some entry =>
        cases hnode : entry.node with
        | none => simp [hzero, eq_comm, hnode]
        | some other => simp [hnode]

theorem node?_withNode {l : Ledger} {node : NodeRef} (hlive : l.isLive node.id = true) (x : Nat) :
    (l.withNode node).node? x = if x = node.id then some node else l.node? x := by
  simp only [node?, withNode, entry?_modify]
  split
  · obtain ⟨e, he⟩ := exists_entry_of_isLive hlive
    simp [*]
  · rfl

@[simp] theorem parent?_withNode (l : Ledger) (node : NodeRef) (x : Nat) :
    (l.withNode node).parent? x = l.parent? x := by
  simp only [parent?, withNode, entry?_modify]
  split
  · cases l.entry? x <;> rfl
  · rfl

@[simp] theorem childIds_withNode (l : Ledger) (node : NodeRef) (x : Nat) :
    (l.withNode node).childIds x = l.childIds x := by
  simp only [childIds, withNode, entry?_modify]
  split
  · cases l.entry? x <;> rfl
  · rfl

theorem entry_id_withNode (l : Ledger) (node : NodeRef) (x : Nat) :
    (Ledger.entry? (l.withNode node) x).map Entry.id = (l.entry? x).map Entry.id := by
  simp only [withNode, entry?_modify]
  split
  · cases l.entry? x <;> rfl
  · rfl

@[simp] theorem config_withNode (l : Ledger) (node : NodeRef) :
    (l.withNode node).config = l.config :=
  config_modify ..

@[simp] theorem firstId_withNode (l : Ledger) (node : NodeRef) :
    (l.withNode node).firstId = l.firstId :=
  firstId_modify ..

@[simp] theorem size_withNode (l : Ledger) (node : NodeRef) : (l.withNode node).size = l.size :=
  size_modify ..

/-! ## Releasing -/

@[simp] theorem entry?_releaseAll (l : Ledger) (id : Nat) : l.releaseAll.entry? id = none := by
  simp [releaseAll, entry?]

@[simp] theorem size_releaseAll (l : Ledger) : l.releaseAll.size = 0 := rfl

theorem firstId_releaseAll_pos {l : Ledger} (h : 0 < l.firstId) : 0 < l.releaseAll.firstId := by
  simp only [releaseAll, maxId]
  omega

/-- The next id is the same after a release, as long as there is one. -/
theorem nextId_releaseAll {l : Ledger} (h : l.nextId ≤ maxId) : l.releaseAll.nextId = l.nextId :=
  Nat.min_eq_left h

end VerilogTree.Ledger
