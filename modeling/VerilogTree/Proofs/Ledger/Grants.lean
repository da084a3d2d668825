import VerilogTree.Proofs.Ledger.LinkLog

/-!
# The count of ids

A ledger keeps no counter. The id that it grants next is its first live id plus the number of
live ids, and a release folds the second into the first. Seen from outside the ids are counted
nevertheless: the grants of a run are 1, 2, 3 and so on, those before the last release are the
released ids and those after it are the live ones.
-/

namespace VerilogTree.Ledger

/-! ## What an operation does -/

/-- The ways in which an operation ends, with the ledger after it and the answer. Later proofs go
through these cases and do not open the operations again. -/
inductive Performed (l : Ledger) : Operation → Ledger × Answer → Prop
  | granted : Performed l .allocate (l.grown, .granted l.nextId)
  | full (failure : Failure) : Performed l .allocate (l, .failed failure)
  | recorded {node : NodeRef} (hid : node.id ≠ 0) (hlive : l.isLive node.id = true)
      (hfree : l.node? node.id = none) : Performed l (.record node) (l.withNode node, .done)
  | notRecorded {node : NodeRef} (misuse : Misuse)
      (hnot : ¬(node.id ≠ 0 ∧ l.isLive node.id = true ∧ l.node? node.id = none)) :
      Performed l (.record node) (l, .refused misuse)
  | moved {child parent : Nat} (heff : l.effective child parent = true) :
      Performed l (.link child parent) (l.moveUnder child parent, .done)
  | ignored (child parent : Nat) : Performed l (.link child parent) (l, .done)
  | notLinked (child parent : Nat) (misuse : Misuse) :
      Performed l (.link child parent) (l, .refused misuse)
  | released : Performed l .releaseAll (l.releaseAll, .done)

theorem performed (l : Ledger) (op : Operation) : Performed l op (l.perform op) := by
  cases op with
  | allocate =>
      by_cases hroom : l.hasRoom
      · rw [perform, allocate_of_hasRoom hroom]
        exact .granted
      · obtain ⟨failure, hfailure⟩ := allocate_of_not_hasRoom hroom
        rw [perform, hfailure]
        exact .full failure
  | record node =>
      cases hrecord : l.record node with
      | error misuse =>
          rw [perform, hrecord]
          refine .notRecorded misuse ?_
          rintro ⟨hid, hlive, hfree⟩
          rw [(record_eq_ok_iff l node _).mpr ⟨hid, hlive, hfree, rfl⟩] at hrecord
          cases hrecord
      | ok after =>
          obtain ⟨hid, hlive, hfree, rfl⟩ := (record_eq_ok_iff l node after).mp hrecord
          rw [perform, hrecord]
          exact .recorded hid hlive hfree
  | link child parent =>
      by_cases hreleased : (l.isReleased child || l.isReleased parent) = true
      · rw [perform, link_of_released hreleased]
        exact .notLinked child parent _
      · rw [perform, link_of_not_released (Bool.eq_false_iff.mpr hreleased)]
        by_cases heff : l.effective child parent = true
        · rw [if_pos heff]
          exact .moved heff
        · rw [if_neg heff]
          exact .ignored child parent
  | releaseAll => exact .released

theorem run_cons (l : Ledger) (op : Operation) (rest : List Operation) :
    l.run (op :: rest) =
      (((l.perform op).1.run rest).1, (l.perform op).2 :: ((l.perform op).1.run rest).2) :=
  rfl

/-! ## Grants seen from outside -/

/-- The ids that answers grant, in order. -/
def grantedIds (answers : List Answer) : List Nat :=
  answers.filterMap fun
    | .granted id => some id
    | _ => none

/-- The ids granted in a run, split at its last release. -/
structure Grants where
  /-- Those granted before the last release. -/
  released : List Nat := []
  /-- Those granted since. -/
  current : List Nat := []

namespace Grants

def note (g : Grants) : Operation × Answer → Grants
  | (.allocate, .granted id) => { g with current := g.current ++ [id] }
  | (.releaseAll, _) => { released := g.released ++ g.current }
  | _ => g

/-- The grants of a run from its operations and answers. -/
def ofRun (ops : List Operation) (answers : List Answer) : Grants :=
  (ops.zip answers).foldl note {}

/-- All ids granted, in order. -/
def all (g : Grants) : List Nat := g.released ++ g.current

end Grants

/-! ## The ledger counts its grants -/

/-- The released and the live ids of a ledger are counted from one, without a gap. -/
structure Counted (l : Ledger) (g : Grants) : Prop where
  firstId_pos : 0 < l.firstId
  released : g.released = List.range' 1 (l.firstId - 1)
  current : g.current = List.range' l.firstId l.size

theorem counted_new (config : LedgerConfig) : Counted { config } {} :=
  ⟨Nat.one_pos, rfl, rfl⟩

namespace Counted

variable {l : Ledger} {g : Grants}

theorem all_eq (h : Counted l g) : g.all = List.range' 1 (l.nextId - 1) := by
  have hpos := h.firstId_pos
  have hstart : l.firstId = 1 + (l.firstId - 1) := by omega
  have hcount : l.nextId - 1 = l.firstId - 1 + l.size := by
    unfold nextId
    omega
  rw [Grants.all, h.released, h.current, hcount, ← List.range'_append_1, ← hstart]

theorem length_all (h : Counted l g) : g.all.length = l.nextId - 1 := by
  rw [h.all_eq, List.length_range']

/-- The grants stay counted when the range of live ids stays the same. -/
theorem congr {l' : Ledger} (h : Counted l g) (hfirst : l'.firstId = l.firstId)
    (hsize : l'.size = l.size) : Counted l' g :=
  ⟨hfirst ▸ h.firstId_pos, hfirst ▸ h.released, by rw [hfirst, hsize]; exact h.current⟩

theorem grown (h : Counted l g) :
    Counted l.grown { g with current := g.current ++ [l.nextId] } := by
  refine ⟨h.firstId_pos, h.released, ?_⟩
  rw [firstId_grown, size_grown, List.range'_1_concat, h.current]
  rfl

/-- A release counts on, as long as there is an id left to count. -/
theorem releaseAll (h : Counted l g) (hmax : l.nextId ≤ maxId) :
    Counted l.releaseAll { released := g.all } := by
  have hfirst : l.releaseAll.firstId = l.nextId := nextId_releaseAll hmax
  refine ⟨?_, ?_, rfl⟩
  · have := h.firstId_pos
    rw [hfirst, nextId]
    omega
  · rw [hfirst]
    exact h.all_eq

theorem perform (h : Counted l g) (hmax : l.nextId ≤ maxId) (op : Operation) :
    Counted (l.perform op).1 (g.note (op, (l.perform op).2)) := by
  have hstep := l.performed op
  generalize l.perform op = result at hstep ⊢
  cases hstep with
  | granted => exact h.grown
  | recorded _ _ _ => exact h.congr (firstId_withNode l _) (size_withNode l _)
  | @moved child parent _ =>
      have hframe := moveUnder_linksOnly l child parent
      exact h.congr hframe.firstId hframe.size
  | released => exact h.releaseAll hmax
  | full | notRecorded | ignored | notLinked => exact h

end Counted

/-- An operation adds its own grant to those before it, whichever operation it is. -/
theorem Grants.all_note (l : Ledger) (g : Grants) (op : Operation) :
    (g.note (op, (l.perform op).2)).all = g.all ++ grantedIds [(l.perform op).2] := by
  have hstep := l.performed op
  generalize l.perform op = result at hstep ⊢
  cases hstep <;> simp [Grants.note, Grants.all, grantedIds]

theorem grantedIds_cons (answer : Answer) (answers : List Answer) :
    grantedIds (answer :: answers) = grantedIds [answer] ++ grantedIds answers :=
  List.filterMap_append (l := [answer])

theorem Grants.all_run (l : Ledger) (g : Grants) (ops : List Operation) :
    ((ops.zip (l.run ops).2).foldl Grants.note g).all = g.all ++ grantedIds (l.run ops).2 := by
  induction ops generalizing l g with
  | nil => simp [run, grantedIds]
  | cons op rest ih =>
      rw [run_cons, List.zip_cons_cons, List.foldl_cons, ih, Grants.all_note, List.append_assoc,
        ← grantedIds_cons]

theorem Counted.run {l : Ledger} {g : Grants} (h : Counted l g) (ops : List Operation)
    (hbound : g.all.length + (grantedIds (l.run ops).2).length < maxId) :
    Counted (l.run ops).1 ((ops.zip (l.run ops).2).foldl Grants.note g) := by
  induction ops generalizing l g with
  | nil => exact h
  | cons op rest ih =>
      -- The bound on the whole run is a bound on the grants before each of its operations.
      have hmax : l.nextId ≤ maxId := by
        have := h.length_all
        omega
      rw [run_cons] at hbound ⊢
      rw [grantedIds_cons, List.length_append] at hbound
      apply ih (h.perform hmax op)
      rw [Grants.all_note, List.length_append]
      omega

/-! ## Status of an id -/

/-- The contract of the ids of a ledger with the answers of its run. -/
structure IdSpec (l : Ledger) (answers : List Answer) (g : Grants) : Prop where
  /-- The `k`-th grant is of the id `k`. -/
  granted_eq : grantedIds answers = List.range' 1 (grantedIds answers).length
  /-- A grant that fails takes no id and changes nothing. -/
  failed : ∀ failure, (l.perform .allocate).2 = .failed failure → (l.perform .allocate).1 = l
  /-- The grants are those before the last release and those since. -/
  split : grantedIds answers = g.released ++ g.current
  isReleased_iff : ∀ id, l.isReleased id = true ↔ id ∈ g.released
  isLive_iff : ∀ id, l.isLive id = true ↔ id ∈ g.current
  /-- Zero is neither released nor live. -/
  zero : l.isReleased 0 = false ∧ l.isLive 0 = false
  /-- No id is both. -/
  not_both : ∀ id, ¬(l.isReleased id = true ∧ l.isLive id = true)
  /-- An id that is neither was never granted. -/
  never : ∀ id, id ∉ grantedIds answers ↔ l.isReleased id = false ∧ l.isLive id = false

namespace Counted

variable {l : Ledger} {g : Grants}

theorem isReleased_iff (h : Counted l g) (id : Nat) : l.isReleased id = true ↔ id ∈ g.released := by
  have := h.firstId_pos
  rw [Ledger.isReleased_iff, h.released, List.mem_range'_1]
  omega

theorem isLive_iff (h : Counted l g) (id : Nat) : l.isLive id = true ↔ id ∈ g.current := by
  rw [Ledger.isLive_iff, h.current, List.mem_range'_1]

theorem idSpec (h : Counted l g) {answers : List Answer} (hall : g.all = grantedIds answers) :
    IdSpec l answers g := by
  have hpos := h.firstId_pos
  refine ⟨?_, ?_, hall.symm, h.isReleased_iff, h.isLive_iff, ?_, ?_, ?_⟩
  · rw [← hall, h.length_all, h.all_eq]
  · intro failure hfailed
    have hstep := l.performed .allocate
    generalize l.perform .allocate = result at hstep hfailed ⊢
    cases hstep with
    | granted => cases hfailed
    | full => rfl
  · rw [← Bool.not_eq_true, ← Bool.not_eq_true, Ledger.isReleased_iff, Ledger.isLive_iff]
    omega
  · intro id
    rw [Ledger.isReleased_iff, Ledger.isLive_iff]
    omega
  · intro id
    rw [← hall, Grants.all, List.mem_append, ← h.isReleased_iff, ← h.isLive_iff]
    simp

end Counted

/-- In every run that grants fewer than all ids, failing and refused operations included, ids are
granted in order from one and never twice, an id is released exactly when it was granted before
the last release, and live exactly when it was granted since. -/
theorem run_ids (config : LedgerConfig) (ops : List Operation)
    (hbound : (grantedIds (run { config } ops).2).length < maxId) :
    IdSpec (run { config } ops).1 (run { config } ops).2
      (Grants.ofRun ops (run { config } ops).2) := by
  have hcounted : Counted (run { config } ops).1 (Grants.ofRun ops (run { config } ops).2) :=
    (counted_new config).run ops (by simpa [Grants.all] using hbound)
  have hall : (Grants.ofRun ops (run { config } ops).2).all = grantedIds (run { config } ops).2 :=
    Grants.all_run { config } {} ops
  exact hcounted.idSpec hall

/-- A run with a grant beyond the limit, a release in the middle and one of nothing, and a refused
link. -/
theorem run_ids_limited :
    let ops : List Operation := [.releaseAll, .allocate, .allocate, .allocate, .releaseAll,
      .allocate, .link 1 3, .releaseAll, .releaseAll, .allocate]
    let config : LedgerConfig := { nodeLimit := some 2 }
    grantedIds (run { config } ops).2 = [1, 2, 3, 4] ∧
      IdSpec (run { config } ops).1 (run { config } ops).2 ⟨[1, 2, 3], [4]⟩ :=
  ⟨rfl, run_ids _ _ (by decide)⟩

end VerilogTree.Ledger
