import VerilogTree.Proofs.Production.Handles

/-!
# The history of a run

A history is what an observer of a run writes down: the handles that were returned, and which node
took in which handles. It is kept beside the builder and is read off the calls, their answers and
the fields of new nodes, never off the ledger.
-/

namespace VerilogTree

/-- The handles in the fields of the node at a position. -/
def Store.storedAt (s : Store) (slot : Nat) : List AnyHandle := (s.body? slot).elim [] Body.stored

/-- A node takes handles in: all those in its fields when it is made, and the added ones when it is
extended. -/
structure Intake where
  taker : AnyHandle
  taken : List AnyHandle

/-- A node has taken a handle in, by one of the given intakes. -/
def TookIn (intakes : List Intake) (x y : AnyHandle) : Prop :=
  ∃ i ∈ intakes, i.taker = x ∧ y ∈ i.taken

theorem tookIn_cons (i : Intake) (intakes : List Intake) (x y : AnyHandle) :
    TookIn (i :: intakes) x y ↔ (i.taker = x ∧ y ∈ i.taken) ∨ TookIn intakes x y := by
  simp [TookIn]

structure History where
  /-- All handles returned so far. -/
  returned : List AnyHandle := []
  /-- The handles returned since the last release. -/
  current : List AnyHandle := []
  /-- What was taken in since the last release, the latest first. -/
  intakes : List Intake := []

/-- Writes down one call, its answer and the builder after it. -/
def History.note (h : History) (after : Builder) :
    Call → Except Misuse (Option NodeRef) → History
  | .construct _, .ok (some node) =>
    { returned := node.toAnyHandle :: h.returned
      current := node.toAnyHandle :: h.current
      intakes := ⟨node.toAnyHandle, after.store.storedAt node.slot⟩ :: h.intakes }
  | .extend e, .ok _ => { h with intakes := ⟨e.target, e.links⟩ :: h.intakes }
  | .releaseAll, _ => { returned := h.returned }
  | _, _ => h

namespace Builder

/-- The history after one more call. -/
def noted (b : Builder) (h : History) (c : Call) : History :=
  h.note (b.call c).1 c (b.call c).2

/-- The history of a run that starts with the history `h`. -/
def history (b : Builder) (h : History) : List Call → History
  | [] => h
  | c :: rest => (b.call c).1.history (b.noted h c) rest

theorem history_append (b : Builder) (h : History) (calls more : List Call) :
    b.history h (calls ++ more) = (b.run calls).1.history (b.history h calls) more := by
  induction calls generalizing b h with
  | nil => rfl
  | cons c rest ih => exact ih (b.call c).1 (b.noted h c)

/-- Every call of a run is admissible in the light of the history before it. -/
def Along (admissible : History → Call → Prop) (b : Builder) (h : History) : List Call → Prop
  | [] => True
  | c :: rest => admissible h c ∧ (b.call c).1.Along admissible (b.noted h c) rest

instance decidableAlong (admissible : History → Call → Prop) [∀ h c, Decidable (admissible h c)]
    (b : Builder) (h : History) : (calls : List Call) → Decidable (b.Along admissible h calls)
  | [] => .isTrue trivial
  | c :: rest =>
    have := decidableAlong admissible (b.call c).1 (b.noted h c) rest
    inferInstanceAs (Decidable (_ ∧ _))

end Builder

/-- The call is given handles returned since the last release and no others. -/
def Call.UsesCurrent (h : History) (c : Call) : Prop := ∀ x ∈ c.arguments, x ∈ h.current
deriving Decidable

/-- The call is given handles returned earlier in the run and no others. -/
def Call.UsesReturned (h : History) (c : Call) : Prop := ∀ x ∈ c.arguments, x ∈ h.returned
deriving Decidable

end VerilogTree
