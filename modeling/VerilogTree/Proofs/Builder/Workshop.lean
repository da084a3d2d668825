import VerilogTree.Proofs.Builder.Calls
import VerilogTree.Proofs.Production.Handles

/-!
# Several builders in one store

Nothing binds a handle to the builder that returned it. Any number of builders may work on the
nodes of one store, each with a ledger of its own, and copies of nodes may be made in between. What
holds after every sequence of such tasks holds in every state that a builder can be in.
-/

namespace VerilogTree

/-- What a builder has for itself. -/
structure Desk where
  ledger : Ledger := {}
  failures : List Failure := []

/-- Builders that share a store. -/
structure Workshop where
  store : Store := {}
  desks : List Desk := []
  /-- All handles that were returned so far. -/
  returned : List AnyHandle := []

inductive Task where
  | newBuilder (config : LedgerConfig)
  | call (builder : Nat) (call : Call)
  | copy (node : AnyHandle)

def Task.arguments : Task → List AnyHandle
  | .newBuilder _ => []
  | .call _ c => c.arguments
  | .copy node => [node]

namespace Workshop

/-- The builder with the given number, at the shared store. -/
def builder? (w : Workshop) (i : Nat) : Option Builder :=
  w.desks[i]?.map fun desk => { store := w.store, ledger := desk.ledger, failures := desk.failures }

/-- The handles that are returned with an answer. -/
def handlesOf : Except Misuse (Option NodeRef) → List AnyHandle
  | .ok (some node) => [node.toAnyHandle]
  | _ => []

/-- Puts a builder back that has answered a call. -/
def putBack (w : Workshop) (i : Nat) (b : Builder) (answer : Except Misuse (Option NodeRef)) :
    Workshop where
  store := b.store
  desks := w.desks.set i ⟨b.ledger, b.failures⟩
  returned := handlesOf answer ++ w.returned

/-- One task. A call of a builder that is not there does nothing. -/
def perform (w : Workshop) : Task → Workshop
  | .newBuilder config => { w with desks := w.desks ++ [{ ledger := { config } }] }
  | .call i c =>
    match w.builder? i with
    | none => w
    | some b => w.putBack i (b.call c).1 (b.call c).2
  | .copy node =>
    { w with
      store := (w.store.copy node).1
      returned := (w.store.copy node).2 :: w.returned }

def run (w : Workshop) (tasks : List Task) : Workshop := tasks.foldl perform w

/-- Every task is given handles returned before it and no others. -/
def UsesReturned (w : Workshop) : List Task → Prop
  | [] => True
  | task :: rest => (∀ x ∈ task.arguments, x ∈ w.returned) ∧ (w.perform task).UsesReturned rest

instance decidableUsesReturned (w : Workshop) : (tasks : List Task) →
    Decidable (w.UsesReturned tasks)
  | [] => .isTrue trivial
  | task :: rest =>
    have := decidableUsesReturned (w.perform task) rest
    inferInstanceAs (Decidable (_ ∧ _))

/-- The ways in which a task ends. -/
inductive Performed (w : Workshop) : Task → Workshop → Prop
  | opened (config : LedgerConfig) : Performed w (.newBuilder config)
      { w with desks := w.desks ++ [{ ledger := { config } }] }
  | absent (i : Nat) (c : Call) : Performed w (.call i c) w
  | called {i : Nat} {b : Builder} (c : Call) (hb : w.builder? i = some b) :
      Performed w (.call i c) (w.putBack i (b.call c).1 (b.call c).2)
  | copied (node : AnyHandle) : Performed w (.copy node)
      { w with
        store := (w.store.copy node).1
        returned := (w.store.copy node).2 :: w.returned }

theorem performed (w : Workshop) (task : Task) : Performed w task (w.perform task) := by
  cases task with
  | newBuilder config => exact .opened config
  | call i c =>
      cases hb : w.builder? i with
      | none =>
          rw [perform, hb]
          exact .absent i c
      | some b =>
          rw [perform, hb]
          exact .called c hb
  | copy node => exact .copied node

theorem exists_desk {w : Workshop} {i : Nat} {b : Builder} (h : w.builder? i = some b) :
    ∃ desk ∈ w.desks,
      b = { store := w.store, ledger := desk.ledger, failures := desk.failures } := by
  obtain ⟨desk, hdesk, rfl⟩ := Option.map_eq_some_iff.mp h
  exact ⟨desk, List.mem_of_getElem? hdesk, rfl⟩

theorem store_eq_of_builder? {w : Workshop} {i : Nat} {b : Builder} (h : w.builder? i = some b) :
    b.store = w.store := by
  obtain ⟨desk, -, rfl⟩ := exists_desk h
  rfl

theorem builder?_putBack {w : Workshop} {i : Nat} {b : Builder} (h : w.builder? i = some b)
    (after : Builder) (answer : Except Misuse (Option NodeRef)) :
    (w.putBack i after answer).builder? i = some after := by
  obtain ⟨desk, hdesk, -⟩ := Option.map_eq_some_iff.mp h
  obtain ⟨hlt, -⟩ := List.getElem?_eq_some_iff.mp hdesk
  simp [builder?, putBack, List.getElem?_set_self hlt]

theorem builder?_call {w : Workshop} {i : Nat} {b : Builder} (h : w.builder? i = some b)
    (c : Call) : (w.perform (.call i c)).builder? i = some (b.call c).1 := by
  simp only [perform, h]
  exact builder?_putBack h _ _

/-- A builder that works alone runs as it would outside the workshop. -/
theorem builder?_run {w : Workshop} {i : Nat} {b : Builder} (h : w.builder? i = some b)
    (calls : List Call) : (w.run (calls.map (.call i))).builder? i = some (b.run calls).1 := by
  induction calls generalizing w b with
  | nil => exact h
  | cons c rest ih => exact ih (builder?_call h c)

/-! ## Ledgers -/

theorem perform_wellFormed {w : Workshop} (h : ∀ desk ∈ w.desks, desk.ledger.WellFormed)
    (task : Task) : ∀ desk ∈ (w.perform task).desks, desk.ledger.WellFormed := by
  have hstep := w.performed task
  generalize w.perform task = after at hstep ⊢
  intro desk hdesk
  cases hstep with
  | opened config =>
      rcases List.mem_append.mp hdesk with hdesk | hdesk
      · exact h desk hdesk
      · obtain rfl := List.mem_singleton.mp hdesk
        exact Ledger.wellFormed_new config
  | absent => exact h desk hdesk
  | called c hb =>
      obtain ⟨own, hown, rfl⟩ := exists_desk hb
      rcases List.mem_or_eq_of_mem_set hdesk with hdesk | rfl
      · exact h desk hdesk
      · exact Builder.call_wellFormed (h own hown) c
  | copied => exact h desk hdesk

theorem run_wellFormed {w : Workshop} (h : ∀ desk ∈ w.desks, desk.ledger.WellFormed)
    (tasks : List Task) : ∀ desk ∈ (w.run tasks).desks, desk.ledger.WellFormed := by
  induction tasks generalizing w with
  | nil => exact h
  | cons task rest ih => exact ih (perform_wellFormed h task)

/-- The ledger of every builder in every state is well-formed. -/
theorem builder_wellFormed {tasks : List Task} {i : Nat} {b : Builder}
    (h : (run {} tasks).builder? i = some b) : b.ledger.WellFormed := by
  obtain ⟨desk, hdesk, rfl⟩ := exists_desk h
  exact run_wellFormed (by simp) tasks desk hdesk

/-! ## One builder among the others -/

section Follow

variable {α : Type} (note : Builder → α → Call → α)

/-- What is noted of builder `i` after one more task. Only its own calls are noted. -/
def followed (w : Workshop) (i : Nat) (noted : α) : Task → α
  | .call j c => if j = i then (w.builder? i).elim noted fun b => note b noted c else noted
  | _ => noted

/-- What is noted of builder `i` in a run that starts with the note `noted`. -/
def follow (w : Workshop) (i : Nat) (noted : α) : List Task → α
  | [] => noted
  | task :: rest => (w.perform task).follow i (w.followed note i noted task) rest

/-- The ledger of builder `i` is as the note has it, and nothing is noted before there is one. -/
def Follows (P : Ledger → α → Prop) (start : α) (w : Workshop) (i : Nat) (noted : α) : Prop :=
  w.desks[i]?.elim (noted = start) fun desk => P desk.ledger noted

variable {note} {P : Ledger → α → Prop} {start : α}

theorem follow_append (w : Workshop) (i : Nat) (noted : α) (tasks more : List Task) :
    w.follow note i noted (tasks ++ more) =
      (w.run tasks).follow note i (w.follow note i noted tasks) more := by
  induction tasks generalizing w noted with
  | nil => rfl
  | cons task rest ih => exact ih (w.perform task) (w.followed note i noted task)

theorem followed_call {w : Workshop} {i : Nat} {b : Builder} (h : w.builder? i = some b)
    (noted : α) (c : Call) : w.followed note i noted (.call i c) = note b noted c := by
  simp [followed, h]

theorem Follows.perform (hnew : ∀ config, P { config } start)
    (hcall : ∀ b noted c, P b.ledger noted → P (b.call c).1.ledger (note b noted c))
    {w : Workshop} {i : Nat} {noted : α} (h : w.Follows P start i noted) (task : Task) :
    (w.perform task).Follows P start i (w.followed note i noted task) := by
  cases task with
  | newBuilder config =>
      change (w.desks ++ [({ ledger := { config } } : Desk)])[i]?.elim _ _
      rcases Nat.lt_trichotomy i w.desks.length with hlt | rfl | hgt
      · rw [List.getElem?_append_left hlt]
        exact h
      · have hstart : noted = start := by simpa [Follows] using h
        simpa [followed, hstart] using hnew config
      · have hstart : noted = start := by
          simpa [Follows, List.getElem?_eq_none (Nat.le_of_lt hgt)] using h
        rw [List.getElem?_eq_none (by simp; omega)]
        exact hstart
  | call j c =>
      cases hdesk : w.desks[j]? with
      | none =>
          have hnone : w.builder? j = none := by simp [builder?, hdesk]
          have hsame : w.followed note i noted (.call j c) = noted := by
            simp only [followed]
            split
            · rename_i hj
              rw [← hj, hnone, Option.elim_none]
            · rfl
          rw [hsame]
          simpa only [Workshop.perform, hnone] using h
      | some desk =>
          have hsome : w.builder? j = some ⟨w.store, desk.ledger, desk.failures⟩ := by
            simp [builder?, hdesk]
          obtain ⟨hlt, -⟩ := List.getElem?_eq_some_iff.mp hdesk
          by_cases hj : j = i
          · subst hj
            simp only [Follows, hdesk, Option.elim_some] at h
            simp only [Follows, Workshop.perform, hsome, putBack, followed, if_pos,
              List.getElem?_set_self hlt, Option.elim_some]
            exact hcall _ noted c h
          · simp only [Follows, Workshop.perform, hsome, putBack, followed, if_neg hj,
              List.getElem?_set_ne hj]
            exact h
  | copy node => exact h

theorem Follows.run (hnew : ∀ config, P { config } start)
    (hcall : ∀ b noted c, P b.ledger noted → P (b.call c).1.ledger (note b noted c))
    {w : Workshop} {i : Nat} {noted : α} (h : w.Follows P start i noted) (tasks : List Task) :
    (w.run tasks).Follows P start i (w.follow note i noted tasks) := by
  induction tasks generalizing w noted with
  | nil => exact h
  | cons task rest ih => exact ih (h.perform hnew hcall task)

/-- What holds of every new ledger and is kept by every call, whatever the store, holds of the
ledger of every builder at all times. -/
theorem follow_builder (hnew : ∀ config, P { config } start)
    (hcall : ∀ b noted c, P b.ledger noted → P (b.call c).1.ledger (note b noted c))
    {tasks : List Task} {i : Nat} {b : Builder} (hb : (run {} tasks).builder? i = some b) :
    P b.ledger (follow note {} i start tasks) := by
  have hstart : Follows P start {} i start := rfl
  have hfollows := hstart.run hnew hcall tasks
  obtain ⟨desk, hdesk, rfl⟩ := Option.map_eq_some_iff.mp hb
  simpa only [Follows, hdesk, Option.elim_some] using hfollows

end Follow

end Workshop

end VerilogTree
