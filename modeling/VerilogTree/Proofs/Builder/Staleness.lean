import VerilogTree.Proofs.Builder.LastId
import VerilogTree.Proofs.Builder.ListHistory

/-!
# Handles of a released tree

A call cannot see when a handle was returned. It sees the id of the node and compares it with the
first id that is live. A release moves that id past all ids granted before it, so an id tells
whether its handle is stale, but for the ids at the two ends: zero, which stands for a node that was
not recorded, and the last id of all, which no release can get past.
-/

namespace VerilogTree.Builder

/-! ## A call with a stale handle -/

/-- A call that is given a handle with a released id is refused, whatever else it is given, unless
the handle is one that it drops. -/
theorem call_refuses {b : Builder} {c : Call} {x : AnyHandle} (hx : x ∈ c.arguments)
    (hkept : x ∉ c.dropped) (hreleased : b.ledger.isReleased (b.store.idAt x.slot) = true) :
    ∃ misuse, (b.call c).2 = .error misuse := by
  cases c with
  | construct p =>
      obtain ⟨misuse, -, heq⟩ | ⟨_, misuse, -, -, heq⟩ | ⟨body, hbody, hok, -⟩ :=
        b.construct_cases p
      · exact ⟨misuse, by rw [call, heq]; rfl⟩
      · exact ⟨misuse, by rw [call, heq]; rfl⟩
      · -- All links were made, so none of them has a released id.
        have hlink : x ∈ body.links :=
          ((Production.mem_arguments_iff hbody x).mp hx).resolve_right hkept
        have hlive := Ledger.isReleased_of_linkAll_eq_ok hok _ (List.mem_map_of_mem hlink)
        rw [Ledger.isReleased, b.granted_grows.firstId, ← Ledger.isReleased, hreleased] at hlive
        cases hlive
  | extend e =>
      obtain ⟨-, heq⟩ | ⟨misuse, -, -, heq⟩ | ⟨htarget, hok, -⟩ := b.extend_cases e
      · exact ⟨_, by rw [call, heq]; rfl⟩
      · exact ⟨misuse, by rw [call, heq]; rfl⟩
      · simp only [Call.arguments, List.mem_cons] at hx
        rcases hx with rfl | hlink
        · rw [htarget] at hreleased
          cases hreleased
        · have hlive := Ledger.isReleased_of_linkAll_eq_ok hok _ (List.mem_map_of_mem hlink)
          rw [hreleased] at hlive
          cases hlive
  | releaseAll => simp [Call.arguments] at hx

/-! ## The ids of returned handles -/

/-- A node stays where it is and keeps its id. -/
theorem idAt_call {b : Builder} {slot : Nat} (h : slot < b.store.size) (c : Call) :
    slot < (b.call c).1.store.size ∧ (b.call c).1.store.idAt slot = b.store.idAt slot := by
  have hnode : b.store.node? slot = some b.store.nodes[slot] := Array.getElem?_eq_getElem h
  have hcall := node?_call hnode c
  exact ⟨Store.lt_size_of_node? hcall, by simp [Store.idAt, hcall, hnode]⟩

/-- The ids of the handles that were returned, all in all and since the last release. Those returned
since then are live, those returned before it lie below the live ones. -/
structure Dated (b : Builder) (returned current : List AnyHandle) : Prop where
  firstId_pos : 0 < b.ledger.firstId
  firstId_le : b.ledger.firstId ≤ Ledger.maxId
  lt_size : ∀ x ∈ returned, x.slot < b.store.size
  current_id : ∀ x ∈ returned, x ∈ current → b.store.idAt x.slot ≠ 0 →
    b.ledger.isLive (b.store.idAt x.slot) = true ∧ b.store.idAt x.slot ≤ Ledger.maxId
  stale_id : ∀ x ∈ returned, x ∉ current →
    b.store.idAt x.slot < b.ledger.firstId ∨ b.store.idAt x.slot = Ledger.maxId

theorem dated_new (store : Store) (config : LedgerConfig) :
    Dated { store, ledger := { config } } [] [] where
  firstId_pos := Nat.one_pos
  firstId_le := show 1 ≤ Ledger.maxId by decide
  lt_size := by simp
  current_id := by simp
  stale_id := by simp

namespace Dated

variable {b : Builder} {returned current : List AnyHandle}

/-- All handles become stale at a release. -/
theorem releaseAll (h : Dated b returned current) : Dated b.releaseAll returned [] := by
  have hfirst : b.releaseAll.ledger.firstId = min b.ledger.nextId Ledger.maxId := rfl
  have hnext : b.ledger.firstId ≤ b.ledger.nextId := Nat.le_add_right _ _
  have hpos := h.firstId_pos
  have hle := h.firstId_le
  refine ⟨Ledger.firstId_releaseAll_pos hpos, Nat.min_le_right _ _, h.lt_size, by simp, ?_⟩
  intro x hx _
  change b.store.idAt x.slot < _ ∨ b.store.idAt x.slot = _
  by_cases hcurrent : x ∈ current
  · by_cases hid : b.store.idAt x.slot = 0
    · omega
    · obtain ⟨hlive, hmax⟩ := h.current_id x hx hcurrent hid
      rw [Ledger.isLive_iff, ← Ledger.nextId] at hlive
      omega
  · rcases h.stale_id x hx hcurrent with hlt | heq
    · omega
    · exact .inr heq

/-- No handle becomes stale otherwise. -/
theorem kept (h : Dated b returned current) {c : Call} (hc : c ≠ .releaseAll) :
    Dated (b.call c).1 returned current := by
  have hgrows := b.call_grows hc
  refine ⟨hgrows.firstId ▸ h.firstId_pos, hgrows.firstId ▸ h.firstId_le, ?_, ?_, ?_⟩
  · intro x hx
    exact (idAt_call (h.lt_size x hx) c).1
  · intro x hx hcurrent
    rw [(idAt_call (h.lt_size x hx) c).2]
    intro hid
    obtain ⟨hlive, hmax⟩ := h.current_id x hx hcurrent hid
    exact ⟨hgrows.isLive hlive, hmax⟩
  · intro x hx hcurrent
    rw [(idAt_call (h.lt_size x hx) c).2, hgrows.firstId]
    exact h.stale_id x hx hcurrent

/-- A handle that is returned is one more current handle. -/
theorem cons (h : Dated b returned current) {x : AnyHandle} (hslot : x.slot < b.store.size)
    (hid : b.store.idAt x.slot ≠ 0 →
      b.ledger.isLive (b.store.idAt x.slot) = true ∧ b.store.idAt x.slot ≤ Ledger.maxId) :
    Dated b (x :: returned) (x :: current) := by
  refine ⟨h.firstId_pos, h.firstId_le, ?_, ?_, ?_⟩
  · simpa [hslot] using h.lt_size
  · intro y hy hcurrent
    by_cases hyx : y = x
    · exact hyx ▸ hid
    · exact h.current_id y (List.mem_of_ne_of_mem hyx hy) (List.mem_of_ne_of_mem hyx hcurrent)
  · intro y hy hcurrent
    have hne : y ≠ x := List.ne_of_not_mem_cons hcurrent
    exact h.stale_id y (List.mem_of_ne_of_mem hne hy) (List.not_mem_of_not_mem_cons hcurrent)

/-- A construction that succeeds returns a handle whose id is live. -/
theorem constructed (h : Dated b returned current) {c : Call} (hc : c ≠ .releaseAll)
    {body : Body} (hcall : (b.call c).1 = b.constructed body) :
    Dated (b.call c).1 ((b.newRef body).toAnyHandle :: returned)
      ((b.newRef body).toAnyHandle :: current) := by
  have hid : (b.constructed body).store.idAt b.store.size = b.newId := by
    simp [Builder.constructed, Store.idAt, Store.node?_add]
  apply (h.kept hc).cons
  · rw [hcall]
    simp [Builder.constructed, newRef]
  · rw [hcall]
    change (b.constructed body).store.idAt b.store.size ≠ 0 → _
    simp only [newRef, hid]
    intro hnew
    have hroom := hasRoom_of_newId hnew
    refine ⟨?_, newId_of_hasRoom hroom ▸ hroom.2⟩
    rw [Ledger.isLive_iff, (b.constructed_grows body).firstId, ← b.granted_grows.firstId,
      b.constructed_size, ← Ledger.isLive_iff]
    exact newId_isLive hnew

theorem call {history : History} (h : Dated b history.returned history.current) (c : Call) :
    Dated (b.call c).1 (b.noted history c).returned (b.noted history c).current := by
  obtain ⟨rfl, hnoted⟩ | ⟨hc, hreturned, hcurrent⟩ | ⟨body, hc, hcall, hreturned, hcurrent⟩ :=
    b.noted_cases history c
  · rw [hnoted]
    exact h.releaseAll
  · rw [hreturned, hcurrent]
    exact h.kept hc
  · rw [hreturned, hcurrent]
    exact h.constructed hc hcall

theorem run {history : History} (h : Dated b history.returned history.current)
    (calls : List Call) :
    Dated (b.run calls).1 (b.history history calls).returned
      (b.history history calls).current := by
  induction calls generalizing b history with
  | nil => exact h
  | cons c rest ih => exact ih (h.call c)

/-- The handles that count as released are the stale ones, but for the ids at the two ends. -/
theorem isReleased_iff (h : Dated b returned current) {x : AnyHandle} (hx : x ∈ returned) :
    b.ledger.isReleased (b.store.idAt x.slot) = true ↔
      x ∉ current ∧ b.store.idAt x.slot ≠ 0 ∧ b.store.idAt x.slot ≠ Ledger.maxId := by
  have hle := h.firstId_le
  rw [Ledger.isReleased_iff]
  constructor
  · rintro ⟨hid, hlt⟩
    refine ⟨?_, hid, by omega⟩
    intro hcurrent
    have hlive := (Ledger.isLive_iff _ _).mp (h.current_id x hx hcurrent hid).1
    omega
  · rintro ⟨hstale, hid, hmax⟩
    exact ⟨hid, (h.stale_id x hx hstale).resolve_right hmax⟩

end Dated

/-- In every run, a handle returned before the last release is refused by every call that does more
than drop it, unless the id of its node is zero or the last of all ids. No other handle that was
returned counts as released. -/
theorem run_refuses_released (store : Store) (config : LedgerConfig) (calls : List Call) :
    let start : Builder := { store, ledger := { config } }
    let b := (start.run calls).1
    let history := start.history {} calls
    ∀ x ∈ history.returned,
      (b.ledger.isReleased (b.store.idAt x.slot) = true ↔ x ∉ history.current ∧
        b.store.idAt x.slot ≠ 0 ∧ b.store.idAt x.slot ≠ Ledger.maxId) ∧
      (x ∉ history.current → b.store.idAt x.slot ≠ 0 → b.store.idAt x.slot ≠ Ledger.maxId →
        ∀ c : Call, x ∈ c.arguments → x ∉ c.dropped → ∃ misuse, (b.call c).2 = .error misuse) := by
  intro start b history x hx
  have hdated : Dated b history.returned history.current := (dated_new store config).run calls
  have hreleased := hdated.isReleased_iff hx
  refine ⟨hreleased, ?_⟩
  intro hstale hid hmax c harg hkept
  exact call_refuses harg hkept (hreleased.mpr ⟨hstale, hid, hmax⟩)

/-- An attribute from before two releases is not added to a list of the present tree. -/
theorem run_refuses_released_twice :
    let start : Builder := {}
    let calls : List Call := [
      .construct (.expression (.identifier "a")),
      .construct (.expression (.attributeSpec ⟨0⟩ none)),
      .releaseAll,
      .construct (.expression (.identifier "b")),
      .releaseAll,
      .construct (.expression (.identifier "c")),
      .construct (.expression (.attributeSpec ⟨3⟩ none)),
      .construct (.expression (.attributeList ⟨4⟩))]
    let b := (start.run calls).1
    let history := start.history {} calls
    let x : AnyHandle := ⟨.attributeSpec, 1⟩
    let c : Call := .extend (.attributeSpec ⟨5⟩ ⟨1⟩)
    x ∈ history.returned ∧ x ∉ history.current ∧ b.store.idAt x.slot = 2 ∧
      x ∈ c.arguments ∧ x ∉ c.dropped ∧ ∃ misuse, (b.call c).2 = .error misuse := by
  intro start calls b history x c
  have hreturned : x ∈ history.returned := by decide
  have hstale : x ∉ history.current := by decide
  exact ⟨hreturned, hstale, by decide, by decide, by decide,
    (run_refuses_released {} {} calls x hreturned).2 hstale (by decide) (by decide) c (by decide)
      (by decide)⟩

/-- A name with the last id is released, and a node with the same id takes it in. -/
theorem Idle.accepts_stale {b : Builder} {slot : Nat} (h : b.Idle Ledger.maxId slot)
    (history : History) :
    let calls : List Call := [nameCall, .releaseAll]
    let x : AnyHandle := ⟨.identifier, slot⟩
    x ∈ (b.history history calls).returned ∧ x ∉ (b.history history calls).current ∧
      ((b.run calls).1.call (.construct (.expression (.identifierNode ⟨slot⟩)))).2 =
        .ok (some ⟨⟨.identifierNode, slot + 1⟩, Ledger.maxId⟩) := by
  intro calls x
  have hle := Nat.le_refl Ledger.maxId
  have hnext : (b.run calls).1.Idle Ledger.maxId (slot + 1) := h.round hle
  have hid : (b.run calls).1.store.idAt slot = Ledger.maxId := h.idAt_name hle
  have hhistory : b.history history calls = { returned := x :: history.returned } := by
    simp only [calls, Builder.history, noted, h.call_name hle]
    rfl
  have hbody : (Production.expression (.identifierNode ⟨slot⟩)).body (b.run calls).1.store =
      .ok (.expression (.identifierNode ⟨slot⟩)) := rfl
  refine ⟨by simp [hhistory], by simp [hhistory], ?_⟩
  rw [hnext.call_construct hle hbody]
  · rfl
  · -- The first live id is the last of all, so the id of the name does not lie below it.
    intro c hc
    obtain rfl := List.mem_singleton.mp hc
    change (b.run calls).1.ledger.isReleased ((b.run calls).1.store.idAt slot) = false
    simp [hid, Ledger.isReleased, hnext.firstId_eq]

/-- A handle returned before the last release is accepted when its node was over the limit, as the
range of parameters of a type that has none, and when its node has the last id of all. -/
theorem run_accepts_stale :
    (let start : Builder := { ledger := { config := { nodeLimit := some 1 } } }
      let calls : List Call := [
        .construct (.expression (.identifier "a")),
        .construct (.expression (.identifier "b")),
        .releaseAll]
      let x : AnyHandle := ⟨.identifier, 1⟩
      let c : Call := .construct (.expression (.identifierNode ⟨1⟩))
      x ∈ (start.history {} calls).returned ∧ x ∉ (start.history {} calls).current ∧
        x ∈ c.arguments ∧
        ((start.run calls).1.call c).2 = .ok (some ⟨⟨.identifierNode, 2⟩, 2⟩)) ∧
    (let start : Builder := {}
      let calls : List Call := [
        .construct (.expression (.stringExpression "0")),
        .construct (.expression (.range ⟨.string, 0⟩ ⟨.string, 0⟩)),
        .releaseAll]
      let x : AnyHandle := ⟨.range, 1⟩
      let c : Call := .construct (.design (.parameterDeclarations [] false false (some ⟨1⟩) .integer))
      x ∈ (start.history {} calls).returned ∧ x ∉ (start.history {} calls).current ∧
        x ∈ c.arguments ∧
        ((start.run calls).1.call c).2 = .ok (some ⟨⟨.parameterDeclarations, 2⟩, 3⟩)) ∧
    (let start : Builder := {}
      let calls : List Call := namesInTurn (Ledger.maxId - 1) ++ [nameCall, .releaseAll]
      let x : AnyHandle := ⟨.identifier, Ledger.maxId - 1⟩
      let c : Call := .construct (.expression (.identifierNode ⟨Ledger.maxId - 1⟩))
      x ∈ (start.history {} calls).returned ∧ x ∉ (start.history {} calls).current ∧
        x ∈ c.arguments ∧
        ((start.run calls).1.call c).2 =
          .ok (some ⟨⟨.identifierNode, Ledger.maxId⟩, Ledger.maxId⟩)) := by
  refine ⟨⟨by decide, by decide, by decide, rfl⟩, ⟨by decide, by decide, by decide, rfl⟩, ?_⟩
  intro start calls x c
  obtain ⟨hreturned, hstale, haccepted⟩ :=
    idle_lastId.accepts_stale (start.history {} (namesInTurn _))
  simp only [calls, history_append, run_append]
  exact ⟨hreturned, hstale, List.mem_singleton.mpr rfl, haccepted⟩

end VerilogTree.Builder
