import VerilogTree.Proofs.Builder.History
import VerilogTree.Proofs.Ledger.Shift

/-!
# Building after a release

Nothing of a released tree is left: what is built afterwards from nodes of its own is what a new
builder would have built, with all ids shifted by the number of those granted before.
-/

namespace VerilogTree

/-! ## Misuse of parts

Parts that do not fit together are described without ids. -/

section

variable {s : Store} {misuse : Misuse} (f : Nat → Nat)

theorem ExpressionProduction.mapIds_misuse {p : ExpressionProduction}
    (h : p.node s = .error misuse) : misuse.mapIds f = misuse := by
  cases p <;> simp only [node] at h <;> (try split at h) <;> cases h <;> rfl

theorem TimingProduction.mapIds_misuse {p : TimingProduction} (h : p.node = .error misuse) :
    misuse.mapIds f = misuse := by
  cases p <;> simp only [node] at h <;> (try split at h) <;> cases h <;> rfl

theorem StatementProduction.mapIds_misuse {p : StatementProduction}
    (h : p.node s = .error misuse) : misuse.mapIds f = misuse := by
  cases p <;> simp only [node] at h <;> (try split at h) <;> cases h <;> rfl

theorem PrimitiveProduction.mapIds_misuse {p : PrimitiveProduction}
    (h : p.node = .error misuse) : misuse.mapIds f = misuse := by
  cases p <;> simp only [node] at h <;> (try split at h) <;> cases h
  rfl

theorem GateProduction.mapIds_misuse {p : GateProduction} (h : p.node = .error misuse) :
    misuse.mapIds f = misuse := by
  cases p <;> simp only [node] at h <;> (try split at h) <;> cases h <;> rfl

theorem Production.mapIds_misuse {p : Production} (h : p.body s = .error misuse) :
    misuse.mapIds f = misuse := by
  cases p with
  | expression p => exact p.mapIds_misuse f (map_eq_error_iff.mp h)
  | timing p => exact p.mapIds_misuse f (map_eq_error_iff.mp h)
  | statement p => exact p.mapIds_misuse f (map_eq_error_iff.mp h)
  | primitive p => exact p.mapIds_misuse f (map_eq_error_iff.mp h)
  | gate p => exact p.mapIds_misuse f (map_eq_error_iff.mp h)
  | path node => cases h
  | design p => cases h

end

/-! ## Counting ids -/

namespace Ledger

/-- The second ledger has the ids of the first, and perhaps more. -/
structure Grows (l l' : Ledger) : Prop where
  config : l'.config = l.config
  firstId : l'.firstId = l.firstId
  size_le : l.size ≤ l'.size

theorem Grows.refl (l : Ledger) : Grows l l := ⟨rfl, rfl, Nat.le_refl _⟩

theorem Grows.trans {l l' l'' : Ledger} (h : Grows l l') (h' : Grows l' l'') : Grows l l'' :=
  ⟨h'.config.trans h.config, h'.firstId.trans h.firstId, Nat.le_trans h.size_le h'.size_le⟩

theorem Grows.isLive {l l' : Ledger} (h : Grows l l') {id : Nat} (hlive : l.isLive id = true) :
    l'.isLive id = true := by
  have hsize := h.size_le
  rw [isLive_iff] at hlive ⊢
  rw [h.firstId]
  omega

theorem LinksOnly.grows {l l' : Ledger} (h : LinksOnly l l') : Grows l l' :=
  ⟨h.config, h.firstId, Nat.le_of_eq h.size.symm⟩

end Ledger

namespace Builder

theorem granted_grows (b : Builder) : Ledger.Grows b.ledger b.granted.ledger := by
  by_cases hroom : b.ledger.hasRoom
  · rw [granted_of_hasRoom hroom]
    exact ⟨rfl, rfl, by simp⟩
  · rw [granted_ledger_of_not_hasRoom hroom]
    exact .refl _

theorem linkedLedger_grows (b : Builder) (body : Body) :
    Ledger.Grows b.ledger (b.linkedLedger body) :=
  b.granted_grows.trans (b.linkedLedger_linksOnly body).grows

theorem constructed_grows (b : Builder) (body : Body) :
    Ledger.Grows b.ledger (b.constructed body).ledger := by
  have hlinked := b.linkedLedger_grows body
  simp only [constructed]
  split
  · exact hlinked
  · exact hlinked.trans ⟨Ledger.config_withNode .., Ledger.firstId_withNode ..,
      Nat.le_of_eq (Ledger.size_withNode ..).symm⟩

theorem call_grows (b : Builder) {c : Call} (hc : c ≠ .releaseAll) :
    Ledger.Grows b.ledger (b.call c).1.ledger := by
  cases c with
  | construct p =>
      obtain ⟨_, _, heq⟩ | ⟨body, _, _, _, heq⟩ | ⟨body, _, _, heq⟩ := b.construct_cases p
      · simpa only [call, heq] using .refl _
      · simpa only [call, heq] using b.linkedLedger_grows body
      · simpa only [call, heq] using b.constructed_grows body
  | extend e =>
      obtain ⟨_, heq⟩ | ⟨_, _, _, heq⟩ | ⟨_, _, heq⟩ := b.extend_cases e
      · simpa only [call, heq] using .refl _
      · simpa only [call, heq] using (b.extendedLedger_linksOnly e).grows
      · simpa only [call, heq, extended] using (b.extendedLedger_linksOnly e).grows
  | releaseAll => exact absurd rfl hc

/-- How many ids are granted in a run. -/
def grants (b : Builder) : List Call → Nat
  | [] => 0
  | c :: rest => ((b.call c).1.ledger.size - b.ledger.size) + (b.call c).1.grants rest

/-- Before the last id, ids are granted in order and never again after a release. -/
theorem call_nextId {b : Builder} (h : b.ledger.nextId ≤ Ledger.maxId) (c : Call) :
    (b.call c).1.ledger.nextId =
      b.ledger.nextId + ((b.call c).1.ledger.size - b.ledger.size) := by
  by_cases hc : c = .releaseAll
  · subst hc
    simp only [call, releaseAll, Ledger.nextId_releaseAll h, Ledger.size_releaseAll, Nat.zero_sub,
      Nat.add_zero]
  · have hgrows := b.call_grows hc
    have hsize := hgrows.size_le
    rw [Ledger.nextId, Ledger.nextId, hgrows.firstId]
    omega

theorem run_nextId {b : Builder} (calls : List Call)
    (h : b.ledger.nextId + b.grants calls ≤ Ledger.maxId) :
    (b.run calls).1.ledger.nextId = b.ledger.nextId + b.grants calls := by
  induction calls generalizing b with
  | nil => rfl
  | cons c rest ih =>
      rw [grants] at h
      have hcall := call_nextId (b := b) (by omega) c
      rw [run_cons, grants, ih (by omega)]
      omega

theorem run_config (b : Builder) (calls : List Call) :
    (b.run calls).1.ledger.config = b.ledger.config := by
  induction calls generalizing b with
  | nil => rfl
  | cons c rest ih =>
      rw [run_cons, ih]
      by_cases hc : c = .releaseAll
      · subst hc
        rfl
      · exact (b.call_grows hc).config

/-! ## Two builders -/

/-- The answer to a call with the ids in it renamed. -/
def renameAnswer (f : Nat → Nat) : Except Misuse (Option NodeRef) → Except Misuse (Option NodeRef)
  | .error misuse => .error (misuse.mapIds f)
  | .ok node => .ok (node.map (NodeRef.mapId f))

/-- The second builder is the first one with all ids shifted. Nodes before position `first` were
there at the start. -/
structure Shifted (k first : Nat) (u v : Builder) : Prop where
  wellFormed : u.ledger.WellFormed
  store_eq : v.store = u.store.mapIds first (shiftId k)
  first_le : first ≤ u.store.size
  ledger_eq : v.ledger = u.ledger.shift k
  failures_eq : v.failures = u.failures

namespace Shifted

variable {k first : Nat} {u v : Builder}

theorem idAt (h : Shifted k first u v) {slot : Nat} (hslot : first ≤ slot) :
    v.store.idAt slot = shiftId k (u.store.idAt slot) := by
  rw [h.store_eq, Store.idAt_mapIds (shiftId_zero k), if_pos hslot]

theorem idsOf (h : Shifted k first u v) {handles : List AnyHandle}
    (hhandles : ∀ x ∈ handles, first ≤ x.slot) :
    v.store.idsOf handles = (u.store.idsOf handles).map (shiftId k) := by
  rw [Store.idsOf, Store.idsOf, List.map_map]
  exact List.map_congr_left fun x hx => h.idAt (hhandles x hx)

theorem allocate (h : Shifted k first u v) (hmax : u.ledger.nextId + k ≤ Ledger.maxId) :
    v.newId = shiftId k u.newId ∧ v.granted.ledger = u.granted.ledger.shift k ∧
      v.granted.failures = u.granted.failures := by
  unfold newId granted Builder.allocate
  rw [h.ledger_eq, Ledger.allocate_shift h.wellFormed.firstId_pos hmax]
  cases u.ledger.allocate with
  | error failure => exact ⟨rfl, rfl, congrArg (· ++ [failure]) h.failures_eq⟩
  | ok granted => exact ⟨rfl, rfl, h.failures_eq⟩

theorem newRef (h : Shifted k first u v) (hmax : u.ledger.nextId + k ≤ Ledger.maxId)
    (body : Body) : v.newRef body = (u.newRef body).mapId (shiftId k) := by
  rw [Builder.newRef, (h.allocate hmax).1, h.store_eq, Store.size_mapIds]
  rfl

theorem linkAll (h : Shifted k first u v) (hmax : u.ledger.nextId + k ≤ Ledger.maxId) {body : Body}
    (hlinks : ∀ x ∈ body.links, first ≤ x.slot) :
    v.linkedLedger body = (u.linkedLedger body).shift k ∧
    (v.granted.ledger.linkAll v.newId (v.store.idsOf body.links)).2 =
      (u.granted.ledger.linkAll u.newId (u.store.idsOf body.links)).2.mapError
        (Misuse.mapIds (shiftId k)) := by
  obtain ⟨hid, hledger, -⟩ := h.allocate hmax
  have hlinked := Ledger.linkAll_shift (k := k) (granted_wellFormed h.wellFormed).firstId_pos
    u.newId (u.store.idsOf body.links)
  rw [linkedLedger, hid, hledger, h.idsOf hlinks, hlinked]
  exact ⟨rfl, rfl⟩

/-- A construction that is refused. -/
theorem refused (h : Shifted k first u v) (hmax : u.ledger.nextId + k ≤ Ledger.maxId) {body : Body}
    (hlinks : ∀ x ∈ body.links, first ≤ x.slot) :
    Shifted k first { u.granted with ledger := u.linkedLedger body }
      { v.granted with ledger := v.linkedLedger body } :=
  ⟨linkedLedger_wellFormed h.wellFormed body, by simpa using h.store_eq, by simpa using h.first_le,
    (h.linkAll hmax hlinks).1, (h.allocate hmax).2.2⟩

/-- A construction that succeeds. -/
theorem constructed (h : Shifted k first u v) (hmax : u.ledger.nextId + k ≤ Ledger.maxId)
    {body : Body} (hlinks : ∀ x ∈ body.links, first ≤ x.slot) :
    Shifted k first (u.constructed body) (v.constructed body) := by
  obtain ⟨hid, -, hfailures⟩ := h.allocate hmax
  refine ⟨constructed_wellFormed h.wellFormed body, ?_, ?_, ?_, hfailures⟩
  · simp only [Builder.constructed]
    rw [Store.mapIds_add h.first_le, ← h.store_eq, hid]
    rfl
  · simp only [Builder.constructed, Store.size_add]
    exact Nat.le_succ_of_le h.first_le
  · simp only [Builder.constructed]
    rw [hid, (h.linkAll hmax hlinks).1, h.newRef hmax]
    by_cases hzero : u.newId = 0
    · rw [if_pos hzero, if_pos (shiftId_eq_zero.mpr hzero)]
    · rw [if_neg hzero, if_neg (mt shiftId_eq_zero.mp hzero),
        Ledger.withNode_shift (linkedLedger_wellFormed h.wellFormed body).firstId_pos]

theorem construct (h : Shifted k first u v) (hmax : u.ledger.nextId + k ≤ Ledger.maxId)
    {p : Production} (hp : ∀ x ∈ p.arguments, first ≤ x.slot) :
    Shifted k first (u.call (.construct p)).1 (v.call (.construct p)).1 ∧
      (v.call (.construct p)).2 = renameAnswer (shiftId k) (u.call (.construct p)).2 := by
  have hsame : p.body v.store = p.body u.store := by
    rw [h.store_eq]
    exact Production.body_congr Store.body?_mapIds p
  obtain ⟨misuse, hbody, heq⟩ | ⟨body, misuse, hbody, hlink, heq⟩ | ⟨body, hbody, hlink, heq⟩ :=
    u.construct_cases p
  · simp only [call, heq, construct_of_error (hsame.trans hbody)]
    refine ⟨h, ?_⟩
    simp only [Except.map, renameAnswer, Production.mapIds_misuse _ hbody]
  · have hlinks : ∀ x ∈ body.links, first ≤ x.slot :=
      fun x hx => hp x (Production.links_subset_arguments hbody hx)
    have hlink' : (v.granted.ledger.linkAll v.newId (v.store.idsOf body.links)).2 =
        .error (misuse.mapIds (shiftId k)) := by
      rw [(h.linkAll hmax hlinks).2, hlink]
      rfl
    simp only [call, heq, construct_of_ok (hsame.trans hbody), hlink']
    exact ⟨h.refused hmax hlinks, rfl⟩
  · have hlinks : ∀ x ∈ body.links, first ≤ x.slot :=
      fun x hx => hp x (Production.links_subset_arguments hbody hx)
    have hlink' : (v.granted.ledger.linkAll v.newId (v.store.idsOf body.links)).2 = .ok () := by
      rw [(h.linkAll hmax hlinks).2, hlink]
      rfl
    simp only [call, heq, construct_of_ok (hsame.trans hbody), hlink']
    refine ⟨h.constructed hmax hlinks, ?_⟩
    rw [h.newRef hmax]
    rfl

theorem extend (h : Shifted k first u v) {e : Extension} (htarget : first ≤ e.target.slot)
    (hlinks : ∀ x ∈ e.links, first ≤ x.slot) :
    Shifted k first (u.call (.extend e)).1 (v.call (.extend e)).1 ∧
      (v.call (.extend e)).2 = renameAnswer (shiftId k) (u.call (.extend e)).2 := by
  have hpos := h.wellFormed.firstId_pos
  have hreleased : v.ledger.isReleased (v.store.idAt e.target.slot) =
      u.ledger.isReleased (u.store.idAt e.target.slot) := by
    rw [h.ledger_eq, h.idAt htarget, Ledger.isReleased_shift hpos]
  have hlinked := Ledger.linkAll_shift (k := k) hpos (u.store.idAt e.target.slot)
    (u.store.idsOf e.links)
  rw [← h.ledger_eq, ← h.idAt htarget, ← h.idsOf hlinks] at hlinked
  have hledger : v.extendedLedger e = (u.extendedLedger e).shift k := congrArg Prod.fst hlinked
  obtain ⟨hu, heq⟩ | ⟨misuse, hu, hlink, heq⟩ | ⟨hu, hlink, heq⟩ := u.extend_cases e
  · simp only [call, heq, extend_of_released (hreleased.trans hu)]
    refine ⟨h, ?_⟩
    rw [h.idAt htarget]
    rfl
  · have hlink' : (v.ledger.linkAll (v.store.idAt e.target.slot) (v.store.idsOf e.links)).2 =
        .error (misuse.mapIds (shiftId k)) := by
      rw [hlinked, hlink]
      rfl
    simp only [call, heq, extend_of_not_released (hreleased.trans hu), hlink']
    exact ⟨⟨extendedLedger_wellFormed h.wellFormed e, h.store_eq, h.first_le, hledger,
      h.failures_eq⟩, rfl⟩
  · have hlink' : (v.ledger.linkAll (v.store.idAt e.target.slot) (v.store.idsOf e.links)).2 =
        .ok () := by
      rw [hlinked, hlink]
      rfl
    simp only [call, heq, extend_of_not_released (hreleased.trans hu), hlink']
    refine ⟨⟨extendedLedger_wellFormed h.wellFormed e, ?_, ?_, hledger, h.failures_eq⟩, rfl⟩
    · simp only [extended]
      rw [Store.mapIds_modify, ← h.store_eq]
    · simp only [extended, Store.size_modify]
      exact h.first_le

theorem call (h : Shifted k first u v) (hmax : u.ledger.nextId + k ≤ Ledger.maxId) {c : Call}
    (hc : ∀ x ∈ c.arguments, first ≤ x.slot) :
    Shifted k first (u.call c).1 (v.call c).1 ∧
      (v.call c).2 = renameAnswer (shiftId k) (u.call c).2 := by
  cases c with
  | construct p => exact h.construct hmax hc
  | extend e =>
      exact h.extend (hc _ (by simp [Call.arguments]))
        fun x hx => hc x (by simp [Call.arguments, hx])
  | releaseAll =>
      refine ⟨⟨h.wellFormed.releaseAll, h.store_eq, h.first_le, ?_, rfl⟩, rfl⟩
      simp only [Builder.call, Builder.releaseAll]
      rw [h.ledger_eq, Ledger.releaseAll_shift hmax]

end Shifted

/-! ## Runs -/

/-- What a history notes of the handles that a call returns: a release returns none and begins
anew, a construction that succeeds returns the handle of its node, and all else returns none. -/
theorem noted_cases (b : Builder) (history : History) (c : Call) :
    (c = .releaseAll ∧ b.noted history c = { returned := history.returned }) ∨
    (c ≠ .releaseAll ∧ (b.noted history c).returned = history.returned ∧
      (b.noted history c).current = history.current) ∨
    (∃ body, c ≠ .releaseAll ∧ (b.call c).1 = b.constructed body ∧
      (b.noted history c).returned = (b.newRef body).toAnyHandle :: history.returned ∧
      (b.noted history c).current = (b.newRef body).toAnyHandle :: history.current) := by
  cases c with
  | construct p =>
      obtain ⟨_, _, heq⟩ | ⟨body, _, _, _, heq⟩ | ⟨body, _, _, heq⟩ := b.construct_cases p
      · refine .inr (.inl ⟨Call.noConfusion, ?_⟩)
        simp only [noted, call, heq, Except.map, History.note, and_self]
      · refine .inr (.inl ⟨Call.noConfusion, ?_⟩)
        simp only [noted, call, heq, Except.map, History.note, and_self]
      · refine .inr (.inr ⟨body, Call.noConfusion, ?_⟩)
        simp only [noted, call, heq, Except.map, History.note, and_self]
  | extend e =>
      refine .inr (.inl ⟨Call.noConfusion, ?_⟩)
      rw [noted]
      cases (b.call (.extend e)).2 <;> exact ⟨rfl, rfl⟩
  | releaseAll => exact .inl ⟨rfl, rfl⟩

/-- A call returns a handle to the next position of the store, or none. -/
theorem noted_returned (b : Builder) (history : History) (c : Call) :
    ∀ x ∈ (b.noted history c).returned, x ∈ history.returned ∨ x.slot = b.store.size := by
  intro x hx
  obtain ⟨-, hnoted⟩ | ⟨-, hreturned, -⟩ | ⟨body, -, -, hreturned, -⟩ :=
    b.noted_cases history c
  · rw [hnoted] at hx
    exact .inl hx
  · exact .inl (hreturned ▸ hx)
  · rw [hreturned, List.mem_cons] at hx
    rcases hx with rfl | hx
    · exact .inr rfl
    · exact .inl hx

theorem Shifted.run {k first : Nat} {u v : Builder} (h : Shifted k first u v) {history : History}
    (hreturned : ∀ x ∈ history.returned, first ≤ x.slot) {calls : List Call}
    (hcalls : u.Along Call.UsesReturned history calls)
    (hmax : v.ledger.nextId + v.grants calls ≤ Ledger.maxId) :
    Shifted k first (u.run calls).1 (v.run calls).1 ∧
      (v.run calls).2 = (u.run calls).2.map (renameAnswer (shiftId k)) := by
  induction calls generalizing u v history with
  | nil => exact ⟨h, rfl⟩
  | cons c rest ih =>
      -- The bound is on the ids of the second run, which are the larger ones.
      have hnext : v.ledger.nextId = u.ledger.nextId + k := by
        rw [h.ledger_eq, Ledger.nextId_shift]
      rw [grants] at hmax
      obtain ⟨hstep, hanswer⟩ := h.call (by omega) fun x hx => hreturned x (hcalls.1 x hx)
      have hslots : ∀ x ∈ (u.noted history c).returned, first ≤ x.slot := by
        intro x hx
        rcases u.noted_returned history c x hx with hold | hnew
        · exact hreturned x hold
        · exact hnew ▸ h.first_le
      obtain ⟨hrun, hanswers⟩ := ih hstep hslots hcalls.2
        (by rw [call_nextId (by omega) c]; omega)
      rw [run_cons, run_cons, List.map_cons, hanswer, hanswers]
      exact ⟨hrun, rfl⟩

theorem Along.take {admissible : History → Call → Prop} {b : Builder} {history : History}
    {calls : List Call} (h : b.Along admissible history calls) (n : Nat) :
    b.Along admissible history (calls.take n) := by
  induction calls generalizing b history n with
  | nil => simpa using h
  | cons c rest ih =>
      cases n with
      | zero => trivial
      | succ n => exact ⟨h.1, ih h.2 n⟩

theorem grants_take_le (b : Builder) (calls : List Call) (n : Nat) :
    b.grants (calls.take n) ≤ b.grants calls := by
  induction calls generalizing b n with
  | nil => simp
  | cons c rest ih =>
      cases n with
      | zero => exact Nat.zero_le _
      | succ n => exact Nat.add_le_add_left (ih _ n) _

/-- What a run after a release and the same run of a new builder have in common. Ids of the
released tree answer nothing. Nodes before position `first` were there at the start. -/
structure ReleaseSpec (k first : Nat)
    (fresh released : Builder × List (Except Misuse (Option NodeRef))) : Prop where
  answers_eq : released.2 = fresh.2.map (renameAnswer (shiftId k))
  failures_eq : released.1.failures = fresh.1.failures
  store_eq : released.1.store = fresh.1.store.mapIds first (shiftId k)
  size_eq : released.1.ledger.size = fresh.1.ledger.size
  nodes_eq : released.1.ledger.nodes = fresh.1.ledger.nodes.map (NodeRef.mapId (shiftId k))
  node_eq : ∀ id, released.1.ledger.node? (shiftId k id) =
    (fresh.1.ledger.node? id).map (NodeRef.mapId (shiftId k))
  children_eq : ∀ id, released.1.ledger.children (shiftId k id) =
    (fresh.1.ledger.children id).map (NodeRef.mapId (shiftId k))
  parent_eq : ∀ id, released.1.ledger.parent? (shiftId k id) =
    (fresh.1.ledger.parent? id).map (shiftId k)
  forgotten : ∀ id, 0 < id → id ≤ k → released.1.ledger.node? id = none ∧
    released.1.ledger.children id = [] ∧ released.1.ledger.parent? id = none

theorem Shifted.releaseSpec {k first : Nat} {u v : Builder} (h : Shifted k first u v)
    {answers answers' : List (Except Misuse (Option NodeRef))}
    (hanswers : answers' = answers.map (renameAnswer (shiftId k))) :
    ReleaseSpec k first (u, answers) (v, answers') := by
  have hpos := h.wellFormed.firstId_pos
  refine ⟨hanswers, h.failures_eq, h.store_eq, ?_, ?_, ?_, ?_, ?_, ?_⟩
  · simp only [h.ledger_eq, Ledger.size_shift]
  · simp only [h.ledger_eq, Ledger.nodes_shift]
  · simp only [h.ledger_eq, Ledger.node?_shift hpos, implies_true]
  · simp only [h.ledger_eq, Ledger.children_shift hpos, implies_true]
  · simp only [h.ledger_eq, Ledger.parent?_shift hpos, implies_true]
  · intro id _ hle
    have hnone : v.ledger.entry? id = none := by
      rw [h.ledger_eq, Ledger.entry?, Ledger.firstId_shift, if_neg (by omega)]
    simp [Ledger.node?, Ledger.children, Ledger.parent?, hnone]

/-- After a release a builder goes on as a new one, with its ids shifted by the number of those
granted before. -/
theorem run_releaseAll (store : Store) (config : LedgerConfig) (before calls : List Call) :
    let start : Builder := { store, ledger := { config } }
    let released := (start.run before).1.releaseAll
    let fresh : Builder := { store := released.store, ledger := { config } }
    fresh.Along Call.UsesReturned {} calls →
    start.grants before + released.grants calls < Ledger.maxId →
    ∀ n, ReleaseSpec (start.grants before) released.store.size (fresh.run (calls.take n))
      (released.run (calls.take n)) := by
  intro start released fresh hcalls htotal n
  have hstart : start.ledger.nextId = 1 := rfl
  have hnext := start.run_nextId before (by omega)
  have hroom : (start.run before).1.ledger.nextId ≤ Ledger.maxId := by omega
  have hledger : released.ledger = fresh.ledger.shift (start.grants before) := by
    have hconfig : (start.run before).1.ledger.config = config := start.run_config before
    have hreleased := Ledger.releaseAll_eq_shift hnext hroom
    rwa [hconfig] at hreleased
  have hshifted : Shifted (start.grants before) released.store.size fresh released :=
    ⟨Ledger.wellFormed_new config, (Store.mapIds_self (Nat.le_refl _)).symm, Nat.le_refl _,
      hledger, rfl⟩
  have hreturned : ∀ x ∈ ({} : History).returned, released.store.size ≤ x.slot := by simp
  have hmax : released.ledger.nextId + released.grants (calls.take n) ≤ Ledger.maxId := by
    have hfirst : released.ledger.nextId = _ := Ledger.nextId_releaseAll hroom
    have htake := released.grants_take_le calls n
    omega
  obtain ⟨hrun, hanswers⟩ := hshifted.run hreturned (hcalls.take n) hmax
  exact hrun.releaseSpec hanswers

/-- A second tree that is built like the first, released in its turn, and then handed a node of
its own past. -/
theorem run_releaseAll_twice :
    let start : Builder := { ledger := { config := { nodeLimit := some 3 } } }
    let before : List Call := [
      .construct (.expression (.identifier "a")),
      .construct (.expression (.attributeSpec ⟨0⟩ none))]
    let released := (start.run before).1.releaseAll
    let fresh : Builder := { store := released.store, ledger := start.ledger }
    let calls : List Call := [
      .construct (.expression (.identifier "b")),
      .construct (.expression (.attributeSpec ⟨2⟩ none)),
      .construct (.expression (.attributeList ⟨3⟩)),
      .construct (.expression (.attributeList ⟨3⟩)),
      .releaseAll,
      .construct (.expression (.attributeList ⟨3⟩)),
      .extend (.attributeSpec ⟨4⟩ ⟨3⟩)]
    fresh.Along Call.UsesReturned {} calls ∧ start.grants before = 2 ∧
      released.grants calls = 4 ∧
      ∀ n, ReleaseSpec (start.grants before) released.store.size (fresh.run (calls.take n))
        (released.run (calls.take n)) := by
  intro start before released fresh calls
  exact ⟨by decide, by decide, by decide,
    run_releaseAll {} { nodeLimit := some 3 } before calls (by decide) (by decide)⟩

end Builder

end VerilogTree
