import VerilogTree.Proofs.Builder.Calls
import VerilogTree.Proofs.Production.Handles

/-!
# How an extension ends

An extension looks at the node that it extends, links what it adds, one after the other, and changes
the list last. A refusal in the second step comes too late for the links before it, but never too
late for the list: whatever is refused, no node is changed.
-/

namespace VerilogTree

/-- All but a batch of branches adds one handle. -/
theorem Extension.length_links {e : Extension} (h : e.growth ≠ .ifElse) : e.links.length = 1 := by
  cases e with
  | attributeSpec list added => rfl
  | item concatenation added => cases added <;> rfl
  | branches chain added => exact absurd rfl h

namespace Builder

variable {b : Builder} {e : Extension}

/-! ## Refusals -/

theorem extend_of_firstReleased
    (htarget : b.ledger.isReleased (b.store.idAt e.target.slot) = false) {j c : Nat}
    (hfirst : b.ledger.FirstReleased (b.store.idsOf e.links) j c) :
    b.ledger.linkAll (b.store.idAt e.target.slot) ((b.store.idsOf e.links).take j) =
        (b.extendedLedger e, .ok ()) ∧
      b.extend e = ({ b with ledger := b.extendedLedger e },
        .error (.releasedLink c (b.store.idAt e.target.slot))) := by
  obtain ⟨hlinked, hrefused⟩ := Ledger.linkAll_of_firstReleased htarget hfirst
  refine ⟨hlinked, ?_⟩
  rw [extend_of_not_released htarget, hrefused]

theorem extend_eq_error_iff :
    (∃ misuse, (b.extend e).2 = .error misuse) ↔
      b.ledger.isReleased (b.store.idAt e.target.slot) = true ∨
        ∃ c ∈ b.store.idsOf e.links, b.ledger.isReleased c = true := by
  cases htarget : b.ledger.isReleased (b.store.idAt e.target.slot) with
  | true => exact ⟨fun _ => .inl rfl, fun _ => ⟨_, by rw [extend_of_released htarget]⟩⟩
  | false =>
      by_cases hreleased : ∃ c ∈ b.store.idsOf e.links, b.ledger.isReleased c = true
      · obtain ⟨j, c, hfirst⟩ := Ledger.exists_firstReleased hreleased
        have hextend := (extend_of_firstReleased htarget hfirst).2
        exact ⟨fun _ => .inr hreleased, fun _ => ⟨_, by rw [hextend]⟩⟩
      · have hextend : b.extend e = (b.extended e, .ok ()) :=
          extend_of_live htarget fun c hc =>
            Bool.eq_false_iff.mpr fun hc' => hreleased ⟨c, hc, hc'⟩
        simp [hextend, hreleased]

/-- A refused extension has linked what comes before the first addition of a released tree. -/
theorem exists_of_extend_eq_error
    (htarget : b.ledger.isReleased (b.store.idAt e.target.slot) = false) {misuse : Misuse}
    (h : (b.extend e).2 = .error misuse) :
    ∃ j c, b.ledger.FirstReleased (b.store.idsOf e.links) j c ∧
      misuse = .releasedLink c (b.store.idAt e.target.slot) ∧
      b.ledger.linkAll (b.store.idAt e.target.slot) ((b.store.idsOf e.links).take j) =
        ((b.extend e).1.ledger, .ok ()) := by
  have hreleased := extend_eq_error_iff.mp ⟨misuse, h⟩
  rw [htarget, or_iff_right Bool.false_ne_true] at hreleased
  obtain ⟨j, c, hfirst⟩ := Ledger.exists_firstReleased hreleased
  obtain ⟨hlinked, hextend⟩ := extend_of_firstReleased htarget hfirst
  rw [hextend] at h ⊢
  cases h
  exact ⟨j, c, hfirst, rfl, hlinked⟩

/-- A refused extension changes the ledger at most. -/
theorem extend_eq_of_error {misuse : Misuse} (h : (b.extend e).2 = .error misuse) :
    (b.extend e).1 = { b with ledger := (b.extend e).1.ledger } := by
  obtain ⟨-, heq⟩ | ⟨_, -, -, heq⟩ | ⟨-, -, heq⟩ := b.extend_cases e
  · rw [heq]
  · rw [heq]
  · rw [heq] at h
    cases h

/-- One addition that is refused has nothing linked before it. -/
theorem extend_eq_self {misuse : Misuse} (hsingle : e.growth ≠ .ifElse)
    (h : (b.extend e).2 = .error misuse) : (b.extend e).1 = b := by
  cases htarget : b.ledger.isReleased (b.store.idAt e.target.slot) with
  | true => rw [extend_of_released htarget]
  | false =>
      obtain ⟨j, c, hfirst, -, hlinked⟩ := exists_of_extend_eq_error htarget h
      have hlength : (b.store.idsOf e.links).length = 1 := by
        rw [Store.idsOf, List.length_map, Extension.length_links hsingle]
      have hj : j = 0 := by
        obtain ⟨hlt, -⟩ := List.getElem?_eq_some_iff.mp hfirst.getElem_eq
        omega
      have hledger : (b.extend e).1.ledger = b.ledger := by
        rw [hj] at hlinked
        exact (congrArg Prod.fst hlinked).symm
      rw [extend_eq_of_error h, hledger]

/-- Nothing is linked under a node that the ledger does not know. -/
theorem extend_ledger_of_not_isLive
    (h : b.ledger.isLive (b.store.idAt e.target.slot) = false) :
    (b.extend e).1.ledger = b.ledger := by
  have hkept : b.extendedLedger e = b.ledger := Ledger.linkAll_of_not_isLive h _
  obtain ⟨-, heq⟩ | ⟨_, -, -, heq⟩ | ⟨-, -, heq⟩ := b.extend_cases e
  · rw [heq]
  · rw [heq, hkept]
  · rw [heq, extended, hkept]

/-! ## The contract of an extension -/

/-- An extension that was not refused. The list has gained what was added, at its end of the list,
and everything else in the store is as it was. -/
structure Gained (s s' : Store) (e : Extension) : Prop where
  attributes : ∀ list added attributes, e = .attributeSpec list added →
    s.body? list.slot = some (.expression (.attributeList attributes)) →
    ∃ grown, s'.body? list.slot = some (.expression (.attributeList grown)) ∧
      grown.toList = added :: attributes.toList
  items : ∀ concatenation added role count items, e = .item concatenation added →
    s.body? concatenation.slot = some (.expression (.concatenation role count items)) →
    ∃ grown, s'.body? concatenation.slot = some (.expression (.concatenation role count grown)) ∧
      grown.toList = added :: items.toList
  branches : ∀ chain added branches elseStatement, e = .branches chain added →
    s.body? chain.slot = some (.statement (.ifElse branches elseStatement)) →
    ∃ grown, s'.body? chain.slot = some (.statement (.ifElse grown elseStatement)) ∧
      grown.toList = branches.toList ++ added.getD []
  id_eq : ∀ slot, s'.idAt slot = s.idAt slot
  other : ∀ slot, slot ≠ e.target.slot → s'.node? slot = s.node? slot

/-- How an extension ends. -/
structure ExtendSpec (b : Builder) (e : Extension) : Prop where
  refused_iff : (∃ misuse, (b.extend e).2 = .error misuse) ↔
    b.ledger.isReleased (b.store.idAt e.target.slot) = true ∨
      ∃ c ∈ b.store.idsOf e.links, b.ledger.isReleased c = true
  /-- The extended node comes first, and what is wrong with it is told by the operation. -/
  target_released : b.ledger.isReleased (b.store.idAt e.target.slot) = true →
    ∃ misuse, b.extend e = (b, .error misuse) ∧ misuse.message =
      e.growth.name ++ s!" was handed node {b.store.idAt e.target.slot} from a released tree"
  /-- No node and no failure comes of a refusal, -/
  refused : ∀ misuse, (b.extend e).2 = .error misuse →
    (b.extend e).1 = { b with ledger := (b.extend e).1.ledger }
  /-- nor any link of a single addition. -/
  refused_single : ∀ misuse, (b.extend e).2 = .error misuse → e.growth ≠ .ifElse →
    (b.extend e).1 = b
  /-- Of a batch the branches before the first one of a released tree are linked. -/
  refused_batch : ∀ misuse, (b.extend e).2 = .error misuse →
    b.ledger.isReleased (b.store.idAt e.target.slot) = false →
    ∃ j c, b.ledger.FirstReleased (b.store.idsOf e.links) j c ∧
      misuse = .releasedLink c (b.store.idAt e.target.slot) ∧
      b.ledger.linkAll (b.store.idAt e.target.slot) ((b.store.idsOf e.links).take j) =
        ((b.extend e).1.ledger, .ok ())
  not_live : b.ledger.isLive (b.store.idAt e.target.slot) = false →
    (b.extend e).1.ledger = b.ledger
  returned : (b.extend e).2 = .ok () →
    Gained b.store (b.extend e).1.store e ∧ (b.extend e).1.failures = b.failures ∧
      b.ledger.linkAll (b.store.idAt e.target.slot) (b.store.idsOf e.links) =
        ((b.extend e).1.ledger, .ok ())

theorem body?_modify_target {s : Store} {body : Body} (e : Extension)
    (h : s.body? e.target.slot = some body) :
    (s.modify e.target.slot e.apply).body? e.target.slot = some (e.apply body) := by
  rw [Store.body?_modify, if_pos rfl, h, Option.map_some]

theorem gained_modify (s : Store) (e : Extension) :
    Gained s (s.modify e.target.slot e.apply) e where
  attributes list added attributes he hbody := by
    subst he
    exact ⟨attributes.pushFront added,
      body?_modify_target (.attributeSpec list added) hbody, by simp⟩
  items concatenation added role count items he hbody := by
    subst he
    exact ⟨items.pushFront added, body?_modify_target (.item concatenation added) hbody, by simp⟩
  branches chain added branches elseStatement he hbody := by
    subst he
    exact ⟨branches.pushBackAll (added.getD []),
      body?_modify_target (.branches chain added) hbody, by simp⟩
  id_eq slot := Store.idAt_modify ..
  other slot hslot := by rw [Store.node?_modify, if_neg hslot]

/-- In every builder and for every extension: it is refused exactly for a released id, the list of
the extended node changes only when it is not, and of the links a refusal leaves those of the
branches before the one that was refused. -/
theorem extend_refused (b : Builder) (e : Extension) : ExtendSpec b e where
  refused_iff := extend_eq_error_iff
  target_released h := ⟨_, extend_of_released h, rfl⟩
  refused _ h := extend_eq_of_error h
  refused_single _ h hsingle := extend_eq_self hsingle h
  refused_batch _ h htarget := exists_of_extend_eq_error htarget h
  not_live h := extend_ledger_of_not_isLive h
  returned h := by
    obtain ⟨-, heq⟩ | ⟨_, -, -, heq⟩ | ⟨-, hlink, heq⟩ := b.extend_cases e
    · rw [heq] at h
      cases h
    · rw [heq] at h
      cases h
    · rw [heq]
      exact ⟨gained_modify b.store e, rfl, Prod.ext rfl hlink⟩

/-- The second branch of a batch is stale: the first one is linked and neither is listed. -/
example :
    let b := (run {} [
      .construct (.statement (.nullStatement none)),
      .construct (.expression (.stringExpression "p")),
      .construct (.statement (.conditional ⟨0⟩ ⟨.string, 1⟩)),
      .releaseAll,
      .construct (.statement (.nullStatement none)),
      .construct (.expression (.stringExpression "q")),
      .construct (.statement (.conditional ⟨3⟩ ⟨.string, 4⟩)),
      .construct (.statement (.conditional ⟨3⟩ ⟨.string, 4⟩)),
      .construct (.statement (.ifElse ⟨5⟩ none))]).1
    let e : Extension := .branches ⟨7⟩ (some [⟨6⟩, ⟨2⟩])
    (b.extend e).2 = .error (.releasedLink 3 8) ∧ (b.extend e).1.ledger.childIds 8 = [6, 7] ∧
      (b.extend e).1.store = b.store :=
  ⟨rfl, rfl, rfl⟩

end Builder

end VerilogTree
