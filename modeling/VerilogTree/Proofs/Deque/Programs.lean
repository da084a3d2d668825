import Mathlib.Logic.Function.Basic
import VerilogTree.Deque

/-!
# Programs over named lists

A program makes lists under names, grows them at either end, copies them and moves one behind
another. How the items of a deque are cut into a front and a back part depends on all of that. What
can be asked of it depends on the sequence only, and the sequences are those of the same program run
on plain lists.
-/

namespace VerilogTree.Deque

/-- One step of a program. A step that names a list which is not there has no effect. -/
inductive Step (ν α : Type) where
  /-- An empty list, which is the default one too. -/
  | new (name : ν)
  /-- The items of a vector or of an iterator. -/
  | ofItems (name : ν) (items : List α)
  | copy (name source : ν)
  | append (name : ν) (item : α)
  | prepend (name : ν) (item : α)
  /-- Moves all items of another list to the end of this one. The other list is gone. -/
  | concat (name source : ν)

/-- The lists that there are, by name. -/
abbrev Lists (ν α : Type) := ν → Option (Deque α)

/-- The sequences that the lists stand for. -/
abbrev Sequences (ν α : Type) := ν → Option (List α)

variable {ν α : Type} [DecidableEq ν]

open Function (update)

namespace Lists

def perform (lists : Lists ν α) : Step ν α → Lists ν α
  | .new name => update lists name (some .empty)
  | .ofItems name items => update lists name (some (.ofList items))
  | .copy name source =>
    match lists source with
    | some d => update lists name (some d)
    | none => lists
  | .append name item => update lists name ((lists name).map (·.pushBack item))
  | .prepend name item => update lists name ((lists name).map (·.pushFront item))
  | .concat name source =>
    match lists name, lists source with
    | some d, some e =>
      -- A list cannot be moved into itself.
      if name = source then lists else update (update lists source none) name (some (d.append e))
    | _, _ => lists

/-- The lists after a program that starts with none. -/
def run (program : List (Step ν α)) : Lists ν α := program.foldl perform fun _ => none

end Lists

namespace Sequences

def perform (sequences : Sequences ν α) : Step ν α → Sequences ν α
  | .new name => update sequences name (some [])
  | .ofItems name items => update sequences name (some items)
  | .copy name source =>
    match sequences source with
    | some xs => update sequences name (some xs)
    | none => sequences
  | .append name item => update sequences name ((sequences name).map (· ++ [item]))
  | .prepend name item => update sequences name ((sequences name).map (item :: ·))
  | .concat name source =>
    match sequences name, sequences source with
    | some xs, some ys =>
      if name = source then sequences
      else update (update sequences source none) name (some (xs ++ ys))
    | _, _ => sequences

/-- The sequences after a program that starts with none. -/
def run (program : List (Step ν α)) : Sequences ν α := program.foldl perform fun _ => none

end Sequences

/-! ## The sequences of the lists -/

namespace Lists

def sequences (lists : Lists ν α) : Sequences ν α := fun name => (lists name).map toList

omit [DecidableEq ν] in
@[simp] theorem sequences_apply (lists : Lists ν α) (name : ν) :
    lists.sequences name = (lists name).map toList := rfl

@[simp] theorem sequences_update (lists : Lists ν α) (name : ν) (d : Option (Deque α)) :
    sequences (update lists name d) = update lists.sequences name (d.map toList) := by
  funext other
  by_cases h : other = name
  · subst h
    simp
  · simp [h]

/-- A step does to the sequences of the lists what it does to plain sequences. -/
theorem sequences_perform (lists : Lists ν α) (step : Step ν α) :
    (lists.perform step).sequences = lists.sequences.perform step := by
  cases step with
  | new name => simp [perform, Sequences.perform]
  | ofItems name items => simp [perform, Sequences.perform]
  | copy name source => cases h : lists source <;> simp [perform, Sequences.perform, h]
  | append name item =>
      cases h : lists name <;> simp [perform, Sequences.perform, h]
  | prepend name item =>
      cases h : lists name <;> simp [perform, Sequences.perform, h]
  | concat name source =>
      cases hname : lists name with
      | none => simp [perform, Sequences.perform, hname]
      | some d =>
          cases hsource : lists source with
          | none => simp [perform, Sequences.perform, hname, hsource]
          | some e =>
              by_cases heq : name = source
              · subst heq
                simp [perform, Sequences.perform, hname]
              · simp [perform, Sequences.perform, hname, hsource, heq]

theorem sequences_run (program : List (Step ν α)) :
    (run program).sequences = Sequences.run program := by
  suffices ∀ lists : Lists ν α,
      (program.foldl perform lists).sequences = program.foldl .perform lists.sequences from
    this fun _ => none
  intro lists
  induction program generalizing lists with
  | nil => rfl
  | cons step rest ih => rw [List.foldl_cons, ih, sequences_perform, List.foldl_cons]

end Lists

/-! ## What can be asked of a list -/

/-- Whatever a deque is asked, it answers for the sequence. -/
structure Represents (d : Deque α) (xs : List α) : Prop where
  /-- The count and the length are both the size. -/
  size_eq : d.size = xs.length
  isEmpty_iff : d.isEmpty = true ↔ xs = []
  head?_eq : d.head? = xs.head?
  last?_eq : d.last? = xs.getLast?
  get?_eq_some_iff : ∀ i a, d.get? i = some a ↔ ∃ h : i < xs.length, xs[i] = a
  get?_eq_none_iff : ∀ i, d.get? i = none ↔ xs.length ≤ i
  /-- All items, from the front to the back. -/
  toList_eq : d.toList = xs
  toListRev_eq : d.toListRev = xs.reverse

omit [DecidableEq ν] in
theorem represents_toList (d : Deque α) : d.Represents d.toList where
  size_eq := d.size_eq_length
  isEmpty_iff := by simp [isEmpty, size_eq_length]
  head?_eq := by rw [head?, get?_eq_getElem?, List.head?_eq_getElem?]
  last?_eq := by rw [last?, get?_eq_getElem?, size_eq_length, List.getLast?_eq_getElem?]
  get?_eq_some_iff i a := by rw [get?_eq_getElem?, List.getElem?_eq_some_iff]
  get?_eq_none_iff i := by rw [get?_eq_getElem?, List.getElem?_eq_none_iff]
  toList_eq := rfl
  toListRev_eq := d.toListRev_eq_reverse

/-- After every program the lists that are left are those of the reference, each answers for its
sequence, and two of them are equal just if their sequences are. -/
theorem run_refines_sequences (program : List (Step ν α)) :
    (∀ name, Option.Rel Represents (Lists.run program name) (Sequences.run program name)) ∧
    ∀ [BEq α] [LawfulBEq α] (name other : ν) (d e : Deque α),
      Lists.run program name = some d → Lists.run program other = some e →
      ((d == e) = true ↔ Sequences.run program name = Sequences.run program other) := by
  rw [← Lists.sequences_run]
  constructor
  · intro name
    cases h : Lists.run program name with
    | none => simp [h]
    | some d => simpa [h] using d.represents_toList
  · intro _ _ name other d e hd he
    simp [beq_iff_toList_eq, hd, he]

/-- A list grown at both ends equals one that took in another, which is gone, while a copy made of
that one before is kept. -/
theorem run_refines_sequences_grown :
    let program : List (Step String Nat) := [
      .new "a", .append "a" 2, .prepend "a" 1,
      .ofItems "b" [1], .new "c", .prepend "c" 2, .copy "d" "c", .concat "b" "c"]
    Lists.run program "a" = some ⟨#[1], #[2]⟩ ∧
      Lists.run program "b" = some ⟨#[], #[1, 2]⟩ ∧
      Lists.run program "c" = none ∧
      Represents ⟨#[2], #[]⟩ [2] ∧
      ((⟨#[1], #[2]⟩ : Deque Nat) == ⟨#[], #[1, 2]⟩) = true := by
  intro program
  obtain ⟨hlists, hequal⟩ := run_refines_sequences program
  have hcopy : Option.Rel Represents (some ⟨#[2], #[]⟩) (some [2]) := hlists "d"
  cases hcopy with
  | some hcopy =>
      exact ⟨rfl, rfl, rfl, hcopy, (hequal "a" "b" _ _ rfl rfl).mpr rfl⟩

end VerilogTree.Deque
