import Mathlib.Data.List.Dedup
import Mathlib.Data.List.TakeWhile
import VerilogTree.Proofs.Ledger.LinkLog

/-!
# The order of siblings

Children that come under one parent one after the other end up behind those that it had. A child
that comes twice keeps its last place only, and those that are left behind elsewhere keep their
order.
-/

namespace VerilogTree.Ledger

/-- The children after the first one can still be moved when it has been. -/
theorem effective_tail {l : Ledger} {c parent : Nat} {rest : List Nat}
    (heff : ∀ d ∈ c :: rest, l.effective d parent = true) :
    ∀ d ∈ rest, (l.moveUnder c parent).effective d parent = true := by
  intro d hd
  rw [(moveUnder_linksOnly l c parent).effective]
  exact heff d (by simp [hd])

theorem WellFormed.childIds_relink {l : Ledger} (h : l.WellFormed) {parent : Nat}
    {moved : List Nat} (heff : ∀ c ∈ moved, l.effective c parent = true) (p : Nat) :
    (l.relink (moved.map fun c => (c, parent))).childIds p =
      (l.childIds p).filter (fun c => c ∉ moved) ++ if p = parent then moved.dedup else [] := by
  induction moved generalizing l with
  | nil => simp [Ledger.relink]
  | cons c rest ih =>
      have hc := heff c (by simp)
      have hparent := ((l.effective_iff c parent).mp hc).2.2
      have hkept : ((l.childIds p).filter (· != c)).filter (fun d => d ∉ rest) =
          (l.childIds p).filter fun d => d ∉ c :: rest := by
        rw [List.filter_filter]
        apply List.filter_congr
        intro d _
        by_cases hd : d = c <;> simp [hd]
      change ((l.moveUnder c parent).relink (rest.map fun c => (c, parent))).childIds p = _
      rw [ih (h.moveUnder hc) (effective_tail heff), childIds_moveUnder hparent, h.childIds_detach,
        List.filter_append, hkept, List.append_assoc]
      by_cases hp : p = parent
      · -- The place that the child has just got is lost again if it comes once more.
        by_cases hmem : c ∈ rest
        · simp [hp, hmem, List.dedup_cons_of_mem hmem]
        · simp [hp, hmem, List.dedup_cons_of_notMem hmem]
      · simp [hp]

/-- The children that move when none of them belongs to a released tree. -/
theorem linksMade_eq_map {l : Ledger} {parent : Nat} {children : List Nat}
    (hok : (l.linkAll parent children).2 = .ok ()) :
    l.linksMade parent children =
      (children.filter fun c => l.effective c parent).map fun c => (c, parent) := by
  have hnone : ∀ c ∈ children, (!(l.isReleased c || l.isReleased parent)) = true := by
    intro c hc
    rw [isReleased_of_linkAll_eq_ok hok c hc]
    rfl
  rw [linksMade, List.takeWhile_eq_self_iff.mpr hnone]

theorem WellFormed.childIds_linkAll {l : Ledger} (h : l.WellFormed) {parent : Nat}
    {children : List Nat} (hok : (l.linkAll parent children).2 = .ok ()) (p : Nat) :
    (l.linkAll parent children).1.childIds p =
      (l.childIds p).filter (fun c => c ∉ children.filter fun c => l.effective c parent) ++
        if p = parent then (children.filter fun c => l.effective c parent).dedup else [] := by
  rw [linkAll_fst, linksMade_eq_map hok]
  exact h.childIds_relink (fun c hc => (List.mem_filter.mp hc).2) p

end VerilogTree.Ledger
