import Mathlib.Data.Finset.Card
import Mathlib.Logic.Relation
import Mathlib.Order.Interval.Finset.Nat
import VerilogTree.Proofs.Ledger.Siblings

/-!
# Ancestors

Following the parents from an id upwards ends, unless it comes back to where it was. A ledger has
as many ids on such a way as are live, so an end is reached within that many steps or never. One
link changes the way up from one id only: it closes a circle exactly when its child is already an
ancestor of its parent.
-/

namespace VerilogTree.Ledger

open Relation

/-- The parent of an id, the parent of that one and so on, the given number of steps up. -/
def climb (l : Ledger) : Nat → Nat → Option Nat
  | 0, id => some id
  | k + 1, id => (l.climb k id).bind l.parent?

/-- The first id is met on the way up from the second one. -/
def IsAncestor (l : Ledger) (a id : Nat) : Prop := ∃ k, l.climb (k + 1) id = some a

/-- From every live id the parents come to an end in no more steps than there are live ids. Other
ids have no parent at all. -/
def Acyclic (l : Ledger) : Prop := ∀ id, l.isLive id = true → l.climb l.size id = none

instance (l : Ledger) : Decidable l.Acyclic :=
  decidable_of_iff (∀ i < l.size, l.climb l.size (l.firstId + i) = none) <| by
    constructor
    · intro h id hlive
      have hrange := (l.isLive_iff id).mp hlive
      have hid : l.firstId + (id - l.firstId) = id := by omega
      exact hid ▸ h (id - l.firstId) (by omega)
    · intro h i hi
      exact h _ ((l.isLive_iff _).mpr (by omega))

/-- One step up. -/
def Up (l : Ledger) (x y : Nat) : Prop := l.parent? x = some y

/-- No id is its own ancestor. -/
def LoopFree (l : Ledger) : Prop := ∀ x, ¬ TransGen l.Up x x

variable {l l' : Ledger}

theorem Up.eq {x y z : Nat} (h : l.Up x y) (h' : l.Up x z) : y = z :=
  Option.some.inj (h.symm.trans h')

/-! ## Steps upwards -/

theorem climb_add (l : Ledger) (j k id : Nat) :
    l.climb (j + k) id = (l.climb j id).bind (l.climb k) := by
  induction k with
  | zero => cases l.climb j id <;> rfl
  | succ k ih =>
      rw [← Nat.add_assoc, climb, ih, Option.bind_assoc]
      rfl

theorem isAncestor_iff {a id : Nat} : l.IsAncestor a id ↔ TransGen l.Up id a := by
  constructor
  · rintro ⟨k, hk⟩
    induction k generalizing a with
    | zero => exact .single hk
    | succ k ih =>
        obtain ⟨y, hy, hstep⟩ := Option.bind_eq_some_iff.mp hk
        exact (ih hy).tail hstep
  · intro h
    induction h with
    | single hstep => exact ⟨0, hstep⟩
    | tail _ hstep ih =>
        obtain ⟨k, hk⟩ := ih
        refine ⟨k + 1, ?_⟩
        rw [climb, hk]
        exact hstep

/-- A way up that leads back to its start never ends. -/
theorem climb_of_loop {x : Nat} (h : TransGen l.Up x x) (k : Nat) :
    ∃ y, l.climb k x = some y ∧ TransGen l.Up y y := by
  induction k with
  | zero => exact ⟨x, rfl, h⟩
  | succ k ih =>
      obtain ⟨y, hy, hloop⟩ := ih
      obtain ⟨z, hstep, hrest⟩ := TransGen.head'_iff.mp hloop
      refine ⟨z, ?_, .tail' hrest hstep⟩
      rw [climb, hy]
      exact hstep

theorem WellFormed.isLive_parent (h : l.WellFormed) {c p : Nat} (hp : l.parent? c = some p) :
    l.isLive p = true := by
  cases hlive : l.isLive p with
  | true => rfl
  | false =>
      have hmem := h.mem_childIds.mpr hp
      rw [childIds, entry?_eq_none_of_not_isLive hlive] at hmem
      exact absurd hmem (List.not_mem_nil)

theorem WellFormed.isLive_climb (h : l.WellFormed) {x y k : Nat} (hx : l.isLive x = true)
    (hy : l.climb k x = some y) : l.isLive y = true := by
  cases k with
  | zero =>
      cases hy
      exact hx
  | succ k =>
      obtain ⟨z, -, hstep⟩ := Option.bind_eq_some_iff.mp hy
      exact h.isLive_parent hstep

theorem WellFormed.isLive_of_isAncestor (h : l.WellFormed) {a id : Nat}
    (ha : l.IsAncestor a id) : l.isLive a = true := by
  obtain ⟨k, hk⟩ := ha
  obtain ⟨z, -, hstep⟩ := Option.bind_eq_some_iff.mp hk
  exact h.isLive_parent hstep

/-- An id that is met twice is its own ancestor. -/
theorem loop_of_climb_eq {i j x z : Nat} (hlt : i < j) (hi : l.climb i x = some z)
    (hj : l.climb j x = some z) : TransGen l.Up z z := by
  obtain ⟨d, rfl⟩ := Nat.exists_eq_add_of_lt hlt
  rw [Nat.add_assoc, climb_add, hi, Option.bind_some] at hj
  exact isAncestor_iff.mp ⟨d, hj⟩

/-- A way up that has not ended after as many steps as there are live ids has met one id twice. -/
theorem WellFormed.exists_loop (h : l.WellFormed) {x y : Nat} (hx : l.isLive x = true)
    (hy : l.climb l.size x = some y) : ∃ z, TransGen l.Up z z := by
  have hmet : ∀ k ≤ l.size, ∃ z, l.climb k x = some z := by
    intro k hk
    obtain ⟨d, hd⟩ := Nat.exists_eq_add_of_le hk
    rw [hd, climb_add] at hy
    obtain ⟨z, hz, -⟩ := Option.bind_eq_some_iff.mp hy
    exact ⟨z, hz⟩
  have hmaps : ∀ k ∈ Finset.range (l.size + 1),
      (l.climb k x).getD 0 ∈ Finset.Ico l.firstId (l.firstId + l.size) := by
    intro k hk
    obtain ⟨z, hz⟩ := hmet k (Nat.lt_succ_iff.mp (Finset.mem_range.mp hk))
    rw [hz, Option.getD_some, Finset.mem_Ico]
    exact (l.isLive_iff z).mp (h.isLive_climb hx hz)
  obtain ⟨i, hi, j, hj, hne, hsame⟩ :=
    Finset.exists_ne_map_eq_of_card_lt_of_maps_to (by simp) hmaps
  obtain ⟨z, hz⟩ := hmet i (Nat.lt_succ_iff.mp (Finset.mem_range.mp hi))
  obtain ⟨z', hz'⟩ := hmet j (Nat.lt_succ_iff.mp (Finset.mem_range.mp hj))
  rw [hz, hz', Option.getD_some, Option.getD_some] at hsame
  subst hsame
  rcases Nat.lt_or_gt_of_ne hne with hlt | hgt
  · exact ⟨z, loop_of_climb_eq hlt hz hz'⟩
  · exact ⟨z, loop_of_climb_eq hgt hz' hz⟩

/-- The parents come to an end from everywhere exactly when no id is its own ancestor. -/
theorem WellFormed.acyclic_iff (h : l.WellFormed) : l.Acyclic ↔ l.LoopFree := by
  constructor
  · intro hacyclic x hloop
    obtain ⟨y, hstep, -⟩ := TransGen.head'_iff.mp hloop
    obtain ⟨z, hz, -⟩ := climb_of_loop hloop l.size
    rw [hacyclic x (isLive_of_parent? hstep)] at hz
    cases hz
  · intro hfree x hx
    cases hend : l.climb l.size x with
    | none => rfl
    | some y =>
        obtain ⟨z, hloop⟩ := h.exists_loop hx hend
        exact absurd hloop (hfree z)

theorem LoopFree.congr (h : l.LoopFree) (hparent : ∀ x, l'.parent? x = l.parent? x) :
    l'.LoopFree := by
  have hup : l'.Up = l.Up := by
    funext x y
    rw [Up, hparent]
    rfl
  intro x
  rw [hup]
  exact h x

/-! ## A new parent for one id -/

section Moved

variable {c p : Nat} (hother : ∀ x, x ≠ c → l'.parent? x = l.parent? x)
include hother

/-- The way up to an id does not depend on how it goes on from there. -/
theorem reaches_of_agree {x : Nat} (h : ReflTransGen l.Up x c) : ReflTransGen l'.Up x c := by
  induction h using ReflTransGen.head_induction_on with
  | refl => exact .refl
  | @head x y hstep _ ih =>
      by_cases hx : x = c
      · rw [hx]
      · exact .head ((hother x hx).trans hstep) ih

/-- A way up that does not come to an id does not depend on it. -/
theorem climbs_of_agree {x y : Nat} (h : TransGen l.Up x y) (havoid : ¬ ReflTransGen l.Up x c) :
    TransGen l'.Up x y := by
  induction h using TransGen.head_induction_on with
  | @single x hstep =>
      have hx : x ≠ c := fun hx => havoid (hx ▸ .refl)
      exact .single ((hother x hx).trans hstep)
  | @head x z hstep _ ih =>
      have hx : x ≠ c := fun hx => havoid (hx ▸ .refl)
      exact .head ((hother x hx).trans hstep) (ih fun hz => havoid (.head hstep hz))

end Moved

/-- Whatever a loop leads to lies on it. -/
theorem loop_of_reaches {x c : Nat} (h : ReflTransGen l.Up x c) (hloop : TransGen l.Up x x) :
    TransGen l.Up c c := by
  induction h using ReflTransGen.head_induction_on with
  | refl => exact hloop
  | @head x y hstep _ ih =>
      obtain ⟨z, hstep', hrest⟩ := TransGen.head'_iff.mp hloop
      obtain rfl := hstep.eq hstep'
      exact ih (.tail' hrest hstep)

section Link

variable {c p : Nat}

theorem parent?_moveUnder_of_ne (hlive : l.isLive c = true) (p : Nat) {x : Nat} (hx : x ≠ c) :
    (l.moveUnder c p).parent? x = l.parent? x := by
  rw [parent?_moveUnder hlive, if_neg hx]

/-- A child that is an ancestor of its new parent, or the parent itself, closes a loop. -/
theorem loop_moveUnder (hlive : l.isLive c = true) (h : ReflTransGen l.Up p c) :
    TransGen (l.moveUnder c p).Up p p := by
  have hreach := reaches_of_agree (fun _ => parent?_moveUnder_of_ne hlive p) h
  refine .tail' hreach ?_
  rw [Up, parent?_moveUnder hlive, if_pos rfl]

/-- No other child does. -/
theorem LoopFree.moveUnder (hfree : l.LoopFree) (hlive : l.isLive c = true)
    (h : ¬ ReflTransGen l.Up p c) : (l.moveUnder c p).LoopFree := by
  have hback : ∀ x, x ≠ c → l.parent? x = (l.moveUnder c p).parent? x :=
    fun x hx => (parent?_moveUnder_of_ne hlive p hx).symm
  intro x hloop
  by_cases hreach : ReflTransGen (l.moveUnder c p).Up x c
  · -- The loop goes through the child, so it goes on from the new parent back to the child.
    obtain ⟨y, hstep, hrest⟩ := TransGen.head'_iff.mp (loop_of_reaches hreach hloop)
    rw [Up, parent?_moveUnder hlive, if_pos rfl, Option.some.injEq] at hstep
    subst hstep
    exact h (reaches_of_agree hback hrest)
  · exact hfree x (climbs_of_agree hback hloop hreach)

/-- A parent that is on a loop stays on one, whatever is linked under it. -/
theorem loop_moveUnder_of_loop (hlive : l.isLive c = true) (hloop : TransGen l.Up p p) :
    TransGen (l.moveUnder c p).Up p p := by
  by_cases hreach : ReflTransGen l.Up p c
  · exact loop_moveUnder hlive hreach
  · exact climbs_of_agree (fun _ => parent?_moveUnder_of_ne hlive p) hloop hreach

/-- The ancestors of the parent stay the same if the child is none of them. -/
theorem ancestors_moveUnder (hlive : l.isLive c = true) (h : ¬ ReflTransGen l.Up p c) (y : Nat) :
    TransGen (l.moveUnder c p).Up p y ↔ TransGen l.Up p y := by
  have hback : ∀ x, x ≠ c → l.parent? x = (l.moveUnder c p).parent? x :=
    fun x hx => (parent?_moveUnder_of_ne hlive p hx).symm
  constructor
  · intro hy
    exact climbs_of_agree hback hy fun hreach => h (reaches_of_agree hback hreach)
  · exact fun hy => climbs_of_agree (fun _ => parent?_moveUnder_of_ne hlive p) hy h

end Link

/-! ## Several children of one parent -/

theorem loop_relink {p : Nat} {moved : List Nat} (heff : ∀ c ∈ moved, l.effective c p = true)
    (hloop : TransGen l.Up p p) :
    TransGen (l.relink (moved.map fun c => (c, p))).Up p p := by
  induction moved generalizing l with
  | nil => exact hloop
  | cons c rest ih =>
      obtain ⟨-, hlive, -⟩ := (l.effective_iff c p).mp (heff c (by simp))
      exact ih (effective_tail heff) (loop_moveUnder_of_loop hlive hloop)

/-- Links under one parent leave a ledger without loops exactly when none of the children is an
ancestor of the parent before the first link. -/
theorem loopFree_relink_iff {p : Nat} {moved : List Nat} (hfree : l.LoopFree)
    (heff : ∀ c ∈ moved, l.effective c p = true) :
    (l.relink (moved.map fun c => (c, p))).LoopFree ↔ ∀ c ∈ moved, ¬ TransGen l.Up p c := by
  induction moved generalizing l with
  | nil => simpa [relink] using hfree
  | cons c rest ih =>
      obtain ⟨hne, hlive, -⟩ := (l.effective_iff c p).mp (heff c (by simp))
      have hrest := effective_tail heff
      have hreach : ReflTransGen l.Up p c ↔ TransGen l.Up p c := by
        rw [reflTransGen_iff_eq_or_transGen]
        exact or_iff_right hne
      change ((l.moveUnder c p).relink (rest.map fun c => (c, p))).LoopFree ↔ _
      rw [List.forall_mem_cons]
      by_cases hancestor : TransGen l.Up p c
      · -- Later links under the same parent cannot break the loop that is closed here.
        have hloop := loop_relink hrest (loop_moveUnder hlive (hreach.mpr hancestor))
        exact ⟨fun h => absurd hloop (h p), fun h => absurd hancestor h.1⟩
      · have hnot : ¬ ReflTransGen l.Up p c := fun h => hancestor (hreach.mp h)
        rw [ih (hfree.moveUnder hlive hnot) hrest]
        simp only [ancestors_moveUnder hlive hnot, hancestor, not_false_eq_true, true_and]

/-! ## Links and acyclic ledgers -/

/-- Under an id that has no parent anything can be linked, also up to a child that is refused. -/
theorem WellFormed.acyclic_linkAll_of_root (h : l.WellFormed) (hacyclic : l.Acyclic) {p : Nat}
    (hroot : l.parent? p = none) (children : List Nat) :
    (l.linkAll p children).1.Acyclic := by
  rw [(h.linkAll p children).acyclic_iff, linkAll_fst, linksMade]
  refine (loopFree_relink_iff (h.acyclic_iff.mp hacyclic) ?_).mpr ?_
  · exact fun c hc => (List.mem_filter.mp hc).2
  · intro c _ hancestor
    obtain ⟨y, hstep, -⟩ := TransGen.head'_iff.mp hancestor
    rw [Up, hroot] at hstep
    cases hstep

/-- Links that are all made leave a ledger acyclic exactly when the parent is not live or none of
the children is one of its ancestors. -/
theorem WellFormed.acyclic_linkAll_iff (h : l.WellFormed) (hacyclic : l.Acyclic) {p : Nat}
    {children : List Nat} (hok : (l.linkAll p children).2 = .ok ()) :
    (l.linkAll p children).1.Acyclic ↔
      l.isLive p = false ∨ ∀ c ∈ children, ¬ l.IsAncestor c p := by
  have hfree := h.acyclic_iff.mp hacyclic
  rw [(h.linkAll p children).acyclic_iff, linkAll_fst, linksMade_eq_map hok,
    loopFree_relink_iff hfree fun c hc => (List.mem_filter.mp hc).2]
  simp only [List.mem_filter, effective_iff, ← isAncestor_iff]
  constructor
  · intro hmoved
    cases hp : l.isLive p with
    | false => exact .inl rfl
    | true =>
        right
        intro c hc hancestor
        have hne : c ≠ p := by
          rintro rfl
          exact hfree c (isAncestor_iff.mp hancestor)
        exact hmoved c ⟨hc, hne, h.isLive_of_isAncestor hancestor, hp⟩ hancestor
  · rintro (hp | hnone) c ⟨hc, -, -, hlive⟩
    · rw [hp] at hlive
      cases hlive
    · exact hnone c hc

/-- One link that is not refused leaves a ledger acyclic exactly when it is without effect or its
child is not an ancestor of its parent. -/
theorem WellFormed.acyclic_link_iff (h : l.WellFormed) (hacyclic : l.Acyclic) {c p : Nat}
    {after : Ledger} (hlink : l.link c p = .ok after) :
    after.Acyclic ↔
      (c = p ∨ l.isLive c = false ∨ l.isLive p = false) ∨ ¬ l.IsAncestor c p := by
  have hall : l.linkAll p [c] = (after, .ok ()) := by
    rw [Ledger.linkAll, hlink]
    rfl
  have hiff := h.acyclic_linkAll_iff hacyclic (congrArg Prod.snd hall)
  rw [hall, List.forall_mem_singleton] at hiff
  rw [hiff]
  constructor
  · rintro (hp | hnot)
    · exact .inl (.inr (.inr hp))
    · exact .inr hnot
  · rintro ((rfl | hc | hp) | hnot)
    · exact .inr fun hancestor => h.acyclic_iff.mp hacyclic c (isAncestor_iff.mp hancestor)
    · right
      intro hancestor
      rw [h.isLive_of_isAncestor hancestor] at hc
      cases hc
    · exact .inl hp
    · exact .inr hnot

end VerilogTree.Ledger
